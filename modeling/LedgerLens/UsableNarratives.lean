import LedgerLens.ForbiddenWords
import LedgerLens.InsightGenerators

namespace LedgerLens
open CachedInsightGenerator (readEntry)

section Outputs
variable [UnicodeDatabase]

/-- The validation accepts what the schema of the adapter has passed, once stripped, if enough of the summary is
left. -/
theorem DeepSeekOutput.usable_iff (apart : SpacesApart) (parsed : DeepSeekOutput) :
    validateGeneratedInsight ⟨Text.strip parsed.summary, parsed.additionalLimitations.map Text.strip⟩ = .ok () ↔
      20 ≤ (Text.strip parsed.summary).length := by
  have short : (Text.strip parsed.summary).length ≤ 1200 :=
    (Text.length_strip_le parsed.summary).trans parsed.summary_length.2
  have few : ¬ (3 < (parsed.additionalLimitations.map Text.strip).length ∨
      (parsed.additionalLimitations.map Text.strip).any fun limitation => Text.strip limitation = "") := by
    rw [not_or, List.length_map, not_lt, List.any_map, Bool.not_eq_true, List.any_eq_false]
    refine ⟨parsed.limitations_length, fun limitation member => ?_⟩
    simp only [Function.comp_apply, Text.strip_strip, decide_eq_true_eq]
    exact parsed.visible limitation member
  have clean : ¬ searchForbidden none (" ".intercalate
      (Text.strip parsed.summary :: parsed.additionalLimitations.map Text.strip)).toList := by
    have raw := parsed.clean
    rw [← Bool.not_eq_true, searchForbidden_iff, standsForbidden_intercalate] at raw
    rw [searchForbidden_iff, standsForbidden_intercalate, ← List.map_cons]
    rintro ⟨_, member, stands⟩
    obtain ⟨part, listed, rfl⟩ := List.mem_map.mp member
    exact raw ⟨part, listed, (apart.strip part).mp stands⟩
  rw [validateGeneratedInsight, Checked.guard_eq_ok, Text.strip_strip, not_not, if_neg few, if_neg clean]
  exact ⟨fun accepted => accepted.1.1, fun long => ⟨⟨long, short⟩, rfl⟩⟩

variable {F : Type} [PydanticJson F]

omit [UnicodeDatabase] in
theorem CachedInsight.build_eq_some {summary : String} {additionalLimitations : List String} {insight : CachedInsight}
    (built : CachedInsight.build summary additionalLimitations = some insight) :
    insight.summary = summary ∧ insight.additionalLimitations = additionalLimitations := by
  unfold CachedInsight.build at built
  split at built
  · split at built
    · cases built
      exact ⟨rfl, rfl⟩
    · cases built
  · cases built

theorem DeepSeekOutput.build_eq_some {summary : String} {additionalLimitations : List String}
    {parsed : DeepSeekOutput} (built : DeepSeekOutput.build summary additionalLimitations = some parsed) :
    parsed.summary = summary ∧ parsed.additionalLimitations = additionalLimitations := by
  unfold DeepSeekOutput.build at built
  split at built
  · split at built
    · split at built
      · split at built
        · cases built
          exact ⟨rfl, rfl⟩
        · cases built
      · cases built
    · cases built
  · cases built

/-- The text that the client is answered. -/
def Completion.content : Completion → Option String
  | .response ((_, content) :: _) => content
  | _ => none

variable (F) in
/-- The summary that is written in a text. -/
def writtenSummary (text : String) : Option String :=
  match PydanticJson.loads (F := F) text with
  | some (.object members) => (Json.get? "summary" members).bind textValue
  | _ => none

variable (F) in
/-- The summary in the output has twenty characters or more without the spaces around it. -/
def Completion.LongSummary (completion : Completion) : Prop :=
  ∀ text ∈ completion.content, ∀ summary ∈ writtenSummary F text, 20 ≤ (Text.strip summary).length

theorem DeepSeekOutput.writtenSummary_eq {text : String} {parsed : DeepSeekOutput}
    (valid : DeepSeekOutput.modelValidateJson F text = some parsed) : writtenSummary F text = some parsed.summary := by
  rw [modelValidateJson, Option.bind_eq_bind] at valid
  obtain ⟨members, own, valid⟩ := Option.bind_eq_some_iff.mp valid
  obtain ⟨summary, found, valid⟩ := Option.bind_eq_some_iff.mp valid
  obtain ⟨additionalLimitations, _, built⟩ := Option.bind_eq_some_iff.mp valid
  obtain ⟨rfl, _⟩ := DeepSeekOutput.build_eq_some built
  rw [writtenSummary]
  match loaded : PydanticJson.loads (F := F) text with
  | some (.object others) =>
    rw [loaded, ownMembers] at own
    split at own
    · cases own
      exact found
    · cases own
  | none | some .null | some (.bool _) | some (.int _) | some (.float _) | some (.string _) | some (.array _) =>
    rw [loaded] at own
    cases own

/-- What the adapter returns is the stripped output of its schema. -/
theorem deepSeekGenerate_eq_ok {completion : Completion} {generated : GeneratedInsight}
    (returned : deepSeekGenerate F completion = .ok generated) :
    ∃ text ∈ completion.content, ∃ parsed, DeepSeekOutput.modelValidateJson F text = some parsed ∧
      generated = ⟨Text.strip parsed.summary, parsed.additionalLimitations.map Text.strip⟩ := by
  match completion with
  | .failed | .response [] => cases returned
  | .response ((finishReason, content) :: _) =>
    obtain ⟨_, returned⟩ := Checked.guard_eq_ok.mp returned
    obtain ⟨nonempty, returned⟩ := Checked.guard_eq_ok.mp returned
    split at returned
    · cases returned
    · next parsed valid =>
      cases returned
      cases content with
      | none => exact absurd rfl nonempty
      | some text => exact ⟨text, rfl, parsed, valid, rfl⟩

/-- What the adapter returns is accepted exactly when the summary in the output is long enough. -/
theorem deepSeekGenerate_usable_iff (apart : SpacesApart) {completion : Completion} {generated : GeneratedInsight}
    (returned : deepSeekGenerate F completion = .ok generated) :
    validateGeneratedInsight generated = .ok () ↔ completion.LongSummary F := by
  obtain ⟨text, content, parsed, valid, rfl⟩ := deepSeekGenerate_eq_ok returned
  rw [parsed.usable_iff apart]
  constructor
  · intro long other same summary written
    cases content.symm.trans same
    cases (DeepSeekOutput.writtenSummary_eq valid).symm.trans written
    exact long
  · exact fun long => long text content _ (DeepSeekOutput.writtenSummary_eq valid)

end Outputs

/-- A call of the cached generator, with what the client of the inner one is answered if it is asked. -/
structure InsightCall (F : Type) where
  circumstances : InsightCircumstances
  completion : Completion
  insightInput : InsightInput F

section Runs
variable {F : Type} [PydanticJson F] [UnicodeDatabase]

/-- The calls one after the other, each with its answer, and what Redis holds in the end. -/
def CachedInsightGenerator.answers (cache : CachedInsightGenerator F) :
    List (InsightCall F) → CacheStore → List (InsightCall F × Except Error GeneratedInsight) × CacheStore
  | [], store => ([], store)
  | call :: rest, store =>
    let (answer, store) := cache.generate (fun _ => deepSeekGenerate F call.completion) call.circumstances
      call.insightInput store
    let (answers, store) := cache.answers rest store
    ((call, answer) :: answers, store)

variable (F) in
/-- Every entry that the cache schema passes would be accepted. -/
def UsableEntries (store : CacheStore) : Prop :=
  ∀ key entry, store key = some entry → ∀ text, String.fromUTF8? entry.value = some text →
    ∀ insight, CachedInsight.modelValidateJson F text = some insight →
      validateGeneratedInsight ⟨insight.summary, insight.additionalLimitations⟩ = .ok ()

variable (F) in
/-- Reading back what was written for a cached narrative gives that narrative. -/
def RoundTrips : Prop :=
  ∀ insight : CachedInsight, CachedInsight.modelValidateJson F (insight.modelDumpJson F) = some insight

omit [UnicodeDatabase] in
theorem readEntry_eq_some {store : CacheStore} {key : String} {insight : CachedInsight}
    (read : readEntry F store key = .ok (some insight)) :
    ∃ entry text, store key = some entry ∧ String.fromUTF8? entry.value = some text ∧
      CachedInsight.modelValidateJson F text = some insight := by
  rw [readEntry] at read
  split at read
  · cases read
  · next bytes found =>
    obtain ⟨entry, present, rfl⟩ := Option.map_eq_some_iff.mp found
    split at read
    · cases read
    · next text decoded => exact ⟨entry, text, present, decoded, Except.ok.inj read⟩

theorem UsableEntries.advance {store : CacheStore} (usable : UsableEntries F store) (now : ℚ) :
    UsableEntries F (Redis.advance now store) := fun key entry present =>
  usable key entry (Redis.advance_eq_some.mp present).1

theorem UsableEntries.setEx (roundTrips : RoundTrips F) {store : CacheStore} (usable : UsableEntries F store)
    {insight : CachedInsight}
    (accepted : validateGeneratedInsight ⟨insight.summary, insight.additionalLimitations⟩ = .ok ()) (now : ℚ)
    (key : String) (seconds : Int) :
    UsableEntries F (Redis.setEx now store key (insight.modelDumpJson F).toUTF8 seconds) := by
  intro other entry present text decoded read valid
  by_cases same : other = key
  · subst same
    rw [Redis.setEx_same] at present
    cases present
    have written : String.fromUTF8? (insight.modelDumpJson F).toUTF8 = some (insight.modelDumpJson F) := by
      rw [String.fromUTF8?]
      exact dif_pos (insight.modelDumpJson F).isValidUTF8
    cases written.symm.trans decoded
    cases (roundTrips insight).symm.trans valid
    exact accepted
  · rw [Redis.setEx_other same] at present
    exact usable other entry present text decoded read valid

/-- One call answers with a usable narrative if it answers, and leaves usable entries. -/
theorem CachedInsightGenerator.generate_usable (cache : CachedInsightGenerator F) (roundTrips : RoundTrips F)
    (generator : InsightInput F → Except Error GeneratedInsight) (insightInput : InsightInput F)
    (sound : ∀ generated, generator insightInput = .ok generated → validateGeneratedInsight generated = .ok ())
    (circumstances : InsightCircumstances) {store : CacheStore} (usable : UsableEntries F store) :
    (∀ generated, (cache.generate generator circumstances insightInput store).1 = .ok generated →
      validateGeneratedInsight generated = .ok ()) ∧
      UsableEntries F (cache.generate generator circumstances insightInput store).2 := by
  have aged := usable.advance circumstances.readAt
  rw [generate]
  simp only
  split
  · exact ⟨nofun, aged⟩
  · next parsed hit =>
    refine ⟨fun generated same => ?_, aged⟩
    cases same
    split at hit
    · cases hit
    · obtain ⟨entry, text, present, decoded, valid⟩ := readEntry_eq_some hit
      exact aged _ entry present text decoded parsed valid
  · split
    · exact ⟨nofun, aged⟩
    · next generated answer =>
      have accepted := sound generated answer
      split
      · exact ⟨fun _ same => Except.ok.inj same ▸ accepted, aged⟩
      · split
        · exact ⟨nofun, aged⟩
        · next insight built =>
          refine ⟨fun _ same => Except.ok.inj same ▸ accepted, ?_⟩
          obtain ⟨summary, limitations⟩ := CachedInsight.build_eq_some built
          split
          · refine aged.setEx roundTrips ?_ _ _ _
            rw [summary, limitations]
            exact accepted
          · exact aged

/-- In a run, every answer is usable, and so are the entries it leaves, if the outputs have long summaries. -/
theorem CachedInsightGenerator.answers_usable (apart : SpacesApart) (roundTrips : RoundTrips F)
    (cache : CachedInsightGenerator F) {calls : List (InsightCall F)} {store : CacheStore}
    (usable : UsableEntries F store)
    (long : ∀ call ∈ calls, (deepSeekGenerate F call.completion).isOk → call.completion.LongSummary F) :
    (∀ answered ∈ (cache.answers calls store).1, ∀ generated, answered.2 = .ok generated →
      validateGeneratedInsight generated = .ok ()) ∧ UsableEntries F (cache.answers calls store).2 := by
  induction calls generalizing store with
  | nil => exact ⟨List.forall_mem_nil _, usable⟩
  | cons call rest ih =>
    obtain ⟨head, tail⟩ := List.forall_mem_cons.mp long
    have sound : ∀ generated, deepSeekGenerate F call.completion = .ok generated →
        validateGeneratedInsight generated = .ok () := fun generated returned =>
      (deepSeekGenerate_usable_iff apart returned).mpr (head (by rw [returned]; rfl))
    obtain ⟨answer, next⟩ := cache.generate_usable roundTrips (fun _ => deepSeekGenerate F call.completion)
      call.insightInput sound call.circumstances usable
    obtain ⟨answers, final⟩ := ih next tail
    exact ⟨List.forall_mem_cons.mpr ⟨answer, answers⟩, final⟩

/-- The validation accepts exactly the narratives whose output has a long summary, and where the model gives no
others, the cache hands out and holds none that would be refused. -/
theorem usable_narratives (apart : SpacesApart) (roundTrips : RoundTrips F) :
    (∀ completion generated, deepSeekGenerate F completion = .ok generated →
      (validateGeneratedInsight generated = .ok () ↔ completion.LongSummary F)) ∧
    ∀ (cache : CachedInsightGenerator F) (calls : List (InsightCall F)) (store : CacheStore), UsableEntries F store →
      (∀ call ∈ calls, (deepSeekGenerate F call.completion).isOk → call.completion.LongSummary F) →
        (∀ answered ∈ (cache.answers calls store).1, ∀ generated, answered.2 = .ok generated →
          validateGeneratedInsight generated = .ok ()) ∧ UsableEntries F (cache.answers calls store).2 :=
  ⟨fun _ _ returned => deepSeekGenerate_usable_iff apart returned,
    fun cache _ _ usable long => cache.answers_usable apart roundTrips usable long⟩

end Runs

section Samples

attribute [local instance] Text.asciiDatabase

theorem narrative_apart : SpacesApart := by
  intro c space
  have letters (alphanumeric : c.isAlphanum) :
      ((65 ≤ c.toNat ∧ c.toNat ≤ 90) ∨ (97 ≤ c.toNat ∧ c.toNat ≤ 122)) ∨ (48 ≤ c.toNat ∧ c.toNat ≤ 57) := by
    have spelled : c.isAlphanum = (decide (65 ≤ c.val ∧ c.val ≤ 90) || (decide (97 ≤ c.val) && decide (c.val ≤ 122)) ||
        (decide (48 ≤ c.val) && decide (c.val ≤ 57))) := rfl
    simp only [spelled, Bool.or_eq_true, Bool.and_eq_true, decide_eq_true_eq, UInt32.le_iff_toNat_le] at alphanumeric
    exact alphanumeric
  simp only [Text.isSpace, Bool.or_eq_true, Bool.and_eq_true, decide_eq_true_eq] at space
  refine Bool.eq_false_iff.mpr fun alphanumeric => ?_
  have range := letters alphanumeric
  omega

attribute [local instance] FloatDecimal.zero

local instance narrativeJson : PydanticJson ℚ where
  loads := Json.loads
  intField := Json.toInt?
  dumps := Json.dumps

theorem textValue_mapM (texts : List String) :
    (texts.map fun text => (Json.text text : Json ℚ)).mapM textValue = some texts := by
  induction texts with
  | nil => rfl
  | cons text texts ih => rw [List.map_cons, List.mapM_cons, ih]; rfl

theorem CachedInsight.build_self (insight : CachedInsight) :
    CachedInsight.build insight.summary insight.additionalLimitations = some insight := by
  rw [build, dif_pos insight.summary_length, dif_pos insight.limitations_length]

theorem narrative_roundTrips : RoundTrips ℚ := by
  intro insight
  have permuted {a b c : Json.Str × Json ℚ} : [a, b, c].Perm [b, c, a] := (List.perm_append_singleton a [b, c]).symm
  have limitations := Json.readsAs_array (F := ℚ) (List.forall₂_map_left_iff.mpr (List.forall₂_map_right_iff.mpr
    (List.forall₂_same.mpr fun text (_ : text ∈ insight.additionalLimitations) => Json.readsAs_text text)))
  have loaded : PydanticJson.loads (insight.modelDumpJson ℚ) = some (.object [
      (.text "additional_limitations", .array (insight.additionalLimitations.map Json.text)),
      (.text "schema_version", .int 1), (.text "summary", .text insight.summary)] : Json ℚ) := by
    refine Json.loads_dumps (Json.readsAs_object permuted ?_ (.cons (limitations.member _)
      (.cons (Json.readsAs_one.member _) (.cons ((Json.readsAs_text _).member _) .nil))))
    exact Json.ascending_of_keys ["additional_limitations", "schema_version", "summary"] rfl (by decide +kernel)
  have texts : textListValue (some (.array (insight.additionalLimitations.map Json.text) : Json ℚ)) =
      some insight.additionalLimitations := textValue_mapM insight.additionalLimitations
  rw [CachedInsight.modelValidateJson, loaded]
  change (do
    let additionalLimitations ← textListValue (some (.array (insight.additionalLimitations.map Json.text) : Json ℚ))
    if (1 : Int) = 1 then CachedInsight.build insight.summary additionalLimitations else none) = some insight
  rw [texts]
  exact insight.build_self

def narrativeInput : InsightInput ℚ where
  asOf := ⟨738887⟩
  simpleReturn := none
  annualizedVolatility := none
  maxDrawdown := none
  sharpeRatio := none
  assetWeights := []
  methodology := {
    annualRiskFreeRate := .finite false 0 0
    riskFreeRateAsOf := ⟨738886⟩
    riskFreeRateAssumption := "none" }
  stale := false

def narrativeGenerator : CachedInsightGenerator ℚ where
  generatorName := "deepseek"
  modelName := "deepseek-v4-flash"
  promptVersion := "deepseek-risk-summary-v1"
  digest _ := "digest"
  ttlSeconds := 86400
  namespace_ := "portfolio-insight"
  ttl_pos := by decide
  namespace_ne := by decide

/-- A call at some time, where Redis is available and the model answers with a summary. -/
def narrativeCall (now : ℚ) (summary : String) : InsightCall ℚ where
  circumstances := ⟨now, false, now, .stored⟩
  completion := .response [("stop", some ("\x7b\"summary\":\"" ++ summary ++ "\"\x7d"))]
  insightInput := narrativeInput

/-- Twenty characters, of which stripping leaves five: the call that comes an hour later and whose output would be
fine is answered with them as well, and both answers are refused. -/
theorem short_narrative_is_pinned :
    (narrativeGenerator.answers
        [narrativeCall 0 "Risk.               ", narrativeCall 3600 "The portfolio fell by a tenth."]
        .empty).1.map Prod.snd =
      [.ok ⟨"Risk.", []⟩, .ok ⟨"Risk.", []⟩] ∧
    validateGeneratedInsight ⟨"Risk.", []⟩ = .error (.valueError "generated insight summary length is invalid") := by
  decide +kernel

def fineCall : InsightCall ℚ := narrativeCall 0 "The portfolio fell by a tenth."

theorem sample_narratives :
    validateGeneratedInsight ⟨"The portfolio fell by a tenth.", []⟩ = .ok () ∧
      UsableEntries ℚ (narrativeGenerator.answers [fineCall] .empty).2 := by
  have long : fineCall.completion.LongSummary ℚ := by
    intro text content summary written
    have read : fineCall.completion.content.bind (writtenSummary ℚ) = some "The portfolio fell by a tenth." := by
      decide +kernel
    rw [Option.mem_def.mp content, Option.bind_some, Option.mem_def.mp written] at read
    cases read
    decide +kernel
  have returned : deepSeekGenerate ℚ fineCall.completion = .ok ⟨"The portfolio fell by a tenth.", []⟩ := by
    decide +kernel
  obtain ⟨exactly, runs⟩ := usable_narratives narrative_apart narrative_roundTrips
  refine ⟨(exactly _ _ returned).mpr long, (runs narrativeGenerator [fineCall] .empty nofun ?_).2⟩
  exact List.forall_mem_singleton.mpr fun _ => long

end Samples
end LedgerLens

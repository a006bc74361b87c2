import LedgerLens.AnalyticsService
import LedgerLens.ForbiddenWords

namespace LedgerLens
open Decimal (Context)
open PortfolioInsightService (buildInsightInput fromKeys narrate snapshotMetrics snapshotMethodology withNarrative)

section FromKeys
variable {α : Type} [DecidableEq α]

theorem fromKeys_sublist (xs : List α) : (fromKeys xs).Sublist xs := by
  induction xs with
  | nil => exact .slnil
  | cons a rest ih => exact (List.filter_sublist.trans ih).cons_cons a

/-- Keys that are there already stay in front; of the others only the new ones come behind them. -/
theorem fromKeys_append {xs : List α} (distinct : xs.Nodup) (ys : List α) :
    fromKeys (xs ++ ys) = xs ++ (fromKeys ys).filter (· ∉ xs) := by
  induction xs with
  | nil => simp
  | cons a xs ih =>
    obtain ⟨new, distinct⟩ := List.nodup_cons.mp distinct
    have others : xs.filter (· ≠ a) = xs :=
      List.filter_eq_self.mpr fun b member => decide_eq_true fun same => new (same ▸ member)
    rw [List.cons_append, fromKeys, ih distinct, List.filter_append, others, List.filter_filter, List.cons_append]
    refine congrArg (fun rest => a :: (xs ++ rest)) (List.filter_congr fun b _ => ?_)
    rw [← Bool.decide_and]
    exact decide_eq_decide.mpr (by simp [not_or])

end FromKeys

variable {F : Type} [FloatArithmetic F]

omit [FloatArithmetic F] in
/-- The limitations differ within their first five bytes, where none of them depends on the analytics. -/
theorem deterministicLimitations_nodup (analytics : PortfolioAnalytics F) :
    (deterministicLimitations analytics).Nodup := by
  refine List.Nodup.of_map (Text.leadingBytes 5) ?_
  have statistics := Text.leadingBytes_append
    (by decide : 5 ≤ "Volatility and Sharpe use ".toByteArray.data.toList.length)
  simp only [deterministicLimitations, String.append_assoc, List.map_append, List.map_cons, statistics]
  split <;> split <;> decide +kernel

variable [UnicodeDatabase]

namespace PortfolioInsightService

/-- The part of `generate` behind the analysis. -/
def conclude (generator : Option (InsightGenerator F)) (portfolioId : UUID) (fresh : Fresh)
    (analytics : PortfolioAnalytics F) : Service F PortfolioInsight := do
  let insightInput := buildInsightInput analytics
  let insight ← narrate generator insightInput (generateDeterministicInsight analytics)
  AnalysisSnapshotRepository.add {
    id := fresh.id
    portfolioId := portfolioId
    asOf := insight.asOf
    metrics := snapshotMetrics insightInput
    methodology := snapshotMethodology insightInput.methodology
    summary := some insight.summary
    generator := some insight.generator
    modelName := insight.modelName
    promptVersion := some insight.promptVersion
    generatedAt := fresh.now }
  return insight

end PortfolioInsightService

open PortfolioInsightService (conclude)

/-- The answer of the generator to an input, if it gives one and the validation accepts it. -/
def InsightGenerator.accepted (generator : InsightGenerator F) (input : InsightInput F) : Option GeneratedInsight :=
  match generator.generate input with
  | .ok generated => if (validateGeneratedInsight generated).isOk then some generated else none
  | .error _ => none

omit [FloatArithmetic F] in
theorem InsightGenerator.accepted_eq_some {generator : InsightGenerator F} {input : InsightInput F}
    {generated : GeneratedInsight} (accepted : generator.accepted input = some generated) :
    generator.generate input = .ok generated ∧ validateGeneratedInsight generated = .ok () := by
  unfold InsightGenerator.accepted at accepted
  split at accepted
  · next answer =>
    split at accepted
    · next valid =>
      cases accepted
      obtain ⟨⟨⟩, checked⟩ := Checked.exists_of_isOk valid
      exact ⟨answer, checked⟩
    · cases accepted
  · cases accepted

/-- The insight after the generator has been asked. -/
def narrated (generator : Option (InsightGenerator F)) (input : InsightInput F) (plain : PortfolioInsight) :
    PortfolioInsight :=
  match generator with
  | none => plain
  | some generator => ((generator.accepted input).map (withNarrative plain generator)).getD plain

omit [FloatArithmetic F] in
theorem narrate_run (generator : Option (InsightGenerator F)) (input : InsightInput F) (plain : PortfolioInsight)
    (world : World F) :
    (narrate generator input plain).run world =
      (.ok (narrated generator input plain),
        if generator.isSome then world.record (.generated input) else world) := by
  cases generator with
  | none => rfl
  | some generator =>
    cases answer : generator.generate input with
    | error raised =>
      simp [narrate, narrated, InsightGenerator.accepted, answer, Program.bind_run]
    | ok generated =>
      cases checked : validateGeneratedInsight generated <;>
        simp [narrate, narrated, InsightGenerator.accepted, answer, checked, Program.bind_run, Except.isOk,
          Except.toBool]

/-- What the generator has no say in. -/
structure SameJudgement (plain insight : PortfolioInsight) : Prop where
  asOf : insight.asOf = plain.asOf
  riskLevel : insight.riskLevel = plain.riskLevel
  keyFactors : insight.keyFactors = plain.keyFactors
  disclaimer : insight.disclaimer = plain.disclaimer
  stale : insight.stale = plain.stale

/-- The text comes from the generator, bears its name, and has no forbidden word in it. -/
structure Narrative (generator : InsightGenerator F) (generated : GeneratedInsight) (insight : PortfolioInsight)
    (added : List String) : Prop where
  summary : insight.summary = generated.summary
  added_mem : ∀ text ∈ added, text ∈ generated.additionalLimitations
  clean : ∀ text ∈ insight.summary :: added, ¬ StandsForbidden none text.toList
  modelName : insight.modelName = some generator.modelName
  promptVersion : insight.promptVersion = generator.promptVersion
  generatorName : insight.generator = generator.generatorName

/-- The snapshot holds the figures and the provenance of the insight. -/
structure Records (snapshot : AnalysisSnapshot F) (portfolioId : UUID) (analytics : PortfolioAnalytics F)
    (insight : PortfolioInsight) : Prop where
  portfolioId : snapshot.portfolioId = portfolioId
  asOf : snapshot.asOf = insight.asOf
  metrics : snapshot.metrics = snapshotMetrics (buildInsightInput analytics)
  metrics_asOf : snapshot.metrics.asOf = insight.asOf.isoformat
  metrics_stale : snapshot.metrics.stale = insight.stale
  methodology : snapshot.methodology = snapshotMethodology analytics.methodology
  summary : snapshot.summary = some insight.summary
  generator : snapshot.generator = some insight.generator
  modelName : snapshot.modelName = insight.modelName
  promptVersion : snapshot.promptVersion = some insight.promptVersion

/-- What the generator can do to an insight. -/
structure NarrativeOnly (generator : InsightGenerator F) (input : InsightInput F) (plain insight : PortfolioInsight)
    (added : List String) : Prop where
  judgement : SameJudgement plain insight
  limitations : insight.limitations = plain.limitations ++ added
  few : added.length ≤ 3
  accepted : ∀ generated, generator.accepted input = some generated → Narrative generator generated insight added
  refused : generator.accepted input = none → insight = plain

theorem narrated_narrativeOnly (generator : InsightGenerator F) (input : InsightInput F)
    (analytics : PortfolioAnalytics F) :
    ∃ added, NarrativeOnly generator input (generateDeterministicInsight analytics)
      (narrated (some generator) input (generateDeterministicInsight analytics)) added := by
  cases accepted : generator.accepted input with
  | none =>
    refine ⟨[], ?_⟩
    rw [narrated, accepted]
    refine ⟨⟨rfl, rfl, rfl, rfl, rfl⟩, (List.append_nil _).symm, Nat.zero_le _, fun generated given => ?_,
      fun _ => rfl⟩
    cases accepted.symm.trans given
  | some generated =>
    obtain ⟨_, checked⟩ := InsightGenerator.accepted_eq_some accepted
    have clean := validateGeneratedInsight_clean checked
    refine ⟨(fromKeys generated.additionalLimitations).filter (· ∉ deterministicLimitations analytics), ?_⟩
    have known := fun text member =>
      (fromKeys_sublist generated.additionalLimitations).subset (List.mem_of_mem_filter (a := text)
        (p := (· ∉ deterministicLimitations analytics)) member)
    rw [narrated, accepted]
    refine ⟨⟨rfl, rfl, rfl, rfl, rfl⟩, fromKeys_append (deterministicLimitations_nodup analytics) _, ?_, ?_, ?_⟩
    · exact ((List.filter_sublist.trans (fromKeys_sublist _)).length_le).trans
        (validateGeneratedInsight_limitations checked)
    · intro other given
      cases accepted.symm.trans given
      refine ⟨rfl, known, fun text member => ?_, rfl, rfl, rfl⟩
      rcases List.mem_cons.mp member with rfl | added
      · exact clean _ List.mem_cons_self
      · exact clean text (List.mem_cons_of_mem _ (known text added))
    · intro refused
      cases accepted.symm.trans refused

/-- With or without a generator, the judgement is that of the rules. -/
theorem narrated_judgement (generator : Option (InsightGenerator F)) (input : InsightInput F)
    (analytics : PortfolioAnalytics F) :
    SameJudgement (generateDeterministicInsight analytics)
      (narrated generator input (generateDeterministicInsight analytics)) := by
  cases generator with
  | none => exact ⟨rfl, rfl, rfl, rfl, rfl⟩
  | some generator =>
    obtain ⟨_, only⟩ := narrated_narrativeOnly generator input analytics
    exact only.judgement

/-- Whatever the generator answers or raises, an insight is returned that judges as the rules alone
do, the generator supplies narrative at most, and one snapshot of the insight is stored. -/
theorem generator_has_no_authority (generator : InsightGenerator F) :
    (∀ ctx methodology ownerId portfolioId startDate endDate marketData (asked : Option (InsightGenerator F)) fresh,
      PortfolioInsightService.generate ctx methodology ownerId portfolioId startDate endDate marketData asked fresh =
        PortfolioAnalyticsService.analyze ctx methodology ownerId portfolioId startDate endDate marketData >>=
          conclude asked portfolioId fresh) ∧
    ∀ portfolioId fresh (analytics : PortfolioAnalytics F) (world : World F),
      ∃ plain insight added snapshot alone after,
        (conclude none portfolioId fresh analytics).run world = (.ok plain, alone) ∧
        (conclude (some generator) portfolioId fresh analytics).run world = (.ok insight, after) ∧
        NarrativeOnly generator (buildInsightInput analytics) plain insight added ∧
        after.store = world.store.addSnapshot snapshot ∧ Records snapshot portfolioId analytics insight := by
  refine ⟨fun _ _ _ _ _ _ _ _ _ => rfl, fun portfolioId fresh analytics world => ?_⟩
  obtain ⟨added, only⟩ := narrated_narrativeOnly generator (buildInsightInput analytics) analytics
  refine ⟨_, _, added, _, _, _, Program.bind_ok (narrate_run none _ _ world) _,
    Program.bind_ok (narrate_run (some generator) _ _ world) _, only, rfl, ?_⟩
  exact ⟨rfl, rfl, rfl, congrArg Date.isoformat only.judgement.asOf.symm, only.judgement.stale.symm, rfl, rfl, rfl,
    rfl, rfl⟩

end LedgerLens

import LedgerLens.TwelveData

namespace LedgerLens
open Checked (OnlyRaises)

/-- The exceptions that a response of the vendor can end in. -/
def Error.IsResponseError : Error → Prop
  | .marketDataNotFound _ | .marketDataRateLimit | .marketDataUnavailable | .marketDataInvalidResponse _ => True
  | _ => False

namespace TwelveData
variable {F : Type}

/-- The date of a row, if it has one. -/
def rowDate : Json F → Option Date
  | .object members => (parseSessionDate ((Json.get? "datetime" members).getD .null)).toOption
  | _ => none

def rowInRange (startDate endDate : Date) (row : Json F) : Bool :=
  (rowDate row).any fun date => startDate ≤ date ∧ date ≤ endDate

section Outcomes
variable [DigitDatabase]

/-- The bar that a row stands for. -/
def RowOf (symbol : String) (row : Json F) (bar : PriceBar) : Prop :=
  ∃ members, row = .object members ∧ bar.symbol = symbol ∧
    parseSessionDate ((Json.get? "datetime" members).getD .null) = .ok bar.date ∧
    parseAdjustedClose ((Json.get? "close" members).getD .null) bar.date = .ok bar.adjustedClose

section Rows
variable {symbol : String} {startDate endDate : Date} {bars : List PriceBar}

theorem addRow_rowOf {row : Json F} {next : List PriceBar}
    (added : addRow symbol startDate endDate bars row = .ok next) :
    rowInRange startDate endDate row = false ∧ next = bars ∨
      rowInRange startDate endDate row ∧ ∃ bar, next = bars ++ [bar] ∧ RowOf symbol row bar := by
  cases row with
  | object members =>
    obtain ⟨date, dated, added⟩ := Checked.bind_eq_ok.mp added
    have known : rowDate (.object members : Json F) = some date := by rw [rowDate, dated]; rfl
    split at added
    · next outside =>
      refine .inl ⟨?_, (Checked.pure_eq_ok.mp added).symm⟩
      rw [rowInRange, known]
      exact decide_eq_false outside
    · next inside =>
      obtain ⟨_, added⟩ := Checked.guard_eq_ok.mp added
      obtain ⟨price, parsed, added⟩ := Checked.bind_eq_ok.mp added
      refine .inr ⟨?_, ⟨symbol, date, price⟩, (Checked.pure_eq_ok.mp added).symm, members, rfl, rfl, dated, parsed⟩
      rw [rowInRange, known]
      exact decide_eq_true (not_not.mp inside)
  | _ => cases added

/-- The loop makes one bar of every row in the range. -/
theorem addRows_rowOf {values : List (Json F)} (run : values.foldlM (addRow symbol startDate endDate) [] = .ok bars) :
    List.Forall₂ (RowOf symbol) (values.filter (rowInRange startDate endDate)) bars := by
  refine Checked.foldlM_prefix_invariant
    (fun seen bars => List.Forall₂ (RowOf symbol) (seen.filter (rowInRange startDate endDate)) bars) .nil run ?_
  intro seen row later bars next _ rows step
  rw [List.filter_append]
  rcases addRow_rowOf step with ⟨outside, rfl⟩ | ⟨inside, bar, rfl, own⟩
  · rw [List.filter_cons_of_neg (by simp [outside]), List.filter_nil, List.append_nil]
    exact rows
  · rw [List.filter_cons_of_pos inside, List.filter_nil]
    exact List.rel_append rows (.cons own .nil)

omit [DigitDatabase] in
theorem parseSessionDate_declared (rawValue : Json F) :
    OnlyRaises Error.IsResponseError (parseSessionDate rawValue) := by
  unfold parseSessionDate
  split
  · split
    · exact .ok _
    · exact .error trivial
  · exact .error trivial
  · exact .error trivial

theorem parseAdjustedClose_declared (rawValue : Json F) (date : Date) :
    OnlyRaises Error.IsResponseError (parseAdjustedClose rawValue date) := by
  unfold parseAdjustedClose
  split
  · split
    · exact .error trivial
    · exact .guard trivial fun _ => .ok _
  · exact .error trivial

theorem addRow_declared (symbol : String) (startDate endDate : Date) (bars : List PriceBar) (row : Json F) :
    OnlyRaises Error.IsResponseError (addRow symbol startDate endDate bars row) := by
  cases row with
  | object members =>
    refine .bind (parseSessionDate_declared _) fun date _ => ?_
    split
    · exact .ok _
    · exact .guard trivial fun _ => .bind (parseAdjustedClose_declared _ _) fun _ _ => .ok _
  | _ => exact .error trivial

end Rows

variable [FloatDecimal F]

/-- A payload says that it reports an error, under a code that cannot be looked up in a set. -/
def UnhashableCode (payload : Json F) : Prop :=
  ∃ members, payload = .object members ∧ ((Json.get? "status" members).getD .null).eqText "error" ∧
    unhashable ((Json.get? "code" members).getD .null)

omit [DigitDatabase] in
/-- What an error envelope is turned into. -/
theorem providerError_declared_iff {payload : List (Json.Str × Json F)} {symbol : String} :
    (providerError payload symbol).IsResponseError ↔ ¬ unhashable ((Json.get? "code" payload).getD .null) := by
  unfold providerError
  generalize (Json.get? "code" payload).getD .null = code
  constructor
  · intro declared listed
    have noNumber : code.eqInt 429 = false := by cases code <;> first | rfl | cases listed
    simp only [noNumber, listed, if_true] at declared
    exact declared
  · intro hashable
    simp only
    split
    · trivial
    · split
      · trivial
      · split <;> trivial

/-- A series is made of a payload: it is one of the query, with one bar for every row in the range. -/
structure NormalizedFrom (symbol : String) (startDate endDate : Date) (payload : Json F) (bars : List PriceBar) :
    Prop where
  sound : SoundBars symbol startDate endDate bars
  rows : ∃ members values found, payload = .object members ∧ Json.get? "values" members = some (.array values) ∧
    List.Forall₂ (RowOf symbol) (values.filter (rowInRange startDate endDate)) found ∧ bars.Perm found

/-- The outcomes that normalization declares. -/
def DeclaredOutcome (symbol : String) (startDate endDate : Date) (payload : Json F) :
    Except Error (List PriceBar) → Prop
  | .ok bars => NormalizedFrom symbol startDate endDate payload bars
  | .error e => e.IsResponseError

theorem normalizePayload_normalizedFrom {symbol : String} {startDate endDate : Date} {payload : Json F}
    {bars : List PriceBar} (normalized : normalizePayload symbol startDate endDate payload = .ok bars) :
    NormalizedFrom symbol startDate endDate payload bars := by
  refine ⟨normalizePayload_sound normalized, ?_⟩
  unfold normalizePayload at normalized
  split at normalized
  · next members =>
    obtain ⟨_, normalized⟩ := Checked.guard_eq_ok.mp normalized
    obtain ⟨_, normalized⟩ := Checked.guard_eq_ok.mp normalized
    obtain ⟨_, normalized⟩ := Checked.guard_eq_ok.mp normalized
    split at normalized
    · next values listed =>
      obtain ⟨_, normalized⟩ := Checked.guard_eq_ok.mp normalized
      obtain ⟨found, run, normalized⟩ := Checked.bind_eq_ok.mp normalized
      obtain ⟨_, normalized⟩ := Checked.guard_eq_ok.mp normalized
      cases normalized
      exact ⟨members, values, found, rfl, listed, addRows_rowOf run, StableSort.sortOn_perm _ _⟩
    · cases normalized
  · cases normalized

/-- Whatever the vendor sends, one of the declared outcomes follows, unless it is an error envelope whose code
is an array or an object. -/
theorem normalization_closed_iff (symbol : String) (startDate endDate : Date) (payload : Json F) :
    DeclaredOutcome symbol startDate endDate payload (normalizePayload symbol startDate endDate payload) ↔
      ¬ UnhashableCode payload := by
  cases run : normalizePayload symbol startDate endDate payload with
  | ok bars =>
    refine ⟨fun _ => ?_, fun _ => normalizePayload_normalizedFrom run⟩
    rintro ⟨members, rfl, failed, _⟩
    exact (Checked.guard_eq_ok.mp run).1 failed
  | error e =>
    cases payload with
    | object members =>
      by_cases failed : ((Json.get? "status" members).getD .null).eqText "error"
      · have raised : e = providerError members symbol := by
          simp only [normalizePayload, failed, if_true] at run
          exact (Except.error.inj run).symm
        rw [DeclaredOutcome, raised, providerError_declared_iff, not_iff_not]
        exact ⟨fun listed => ⟨members, rfl, failed, listed⟩, fun ⟨_, same, _, listed⟩ => by cases same; exact listed⟩
      · have hashable : ¬ UnhashableCode (.object members : Json F) := by
          rintro ⟨_, same, reported, _⟩
          cases same
          exact failed reported
        refine iff_of_true ?_ hashable
        suffices raises : OnlyRaises Error.IsResponseError
            (normalizePayload symbol startDate endDate (.object members)) from raises e run
        simp only [normalizePayload, failed, Bool.false_eq_true, if_false]
        refine .guard trivial fun _ => .guard trivial fun _ => ?_
        split
        · refine .guard trivial fun _ =>
            .bind (.foldlM (fun bars row _ => addRow_declared _ _ _ bars row) _) fun _ _ => ?_
          exact .guard trivial fun _ => .ok _
        · exact .error trivial
    | _ =>
      refine iff_of_true ?_ (fun ⟨_, same, _⟩ => nomatch same)
      cases run
      trivial

end Outcomes

section Samples

attribute [local instance] FloatDecimal.zero DigitDatabase.ascii

/-- An error envelope whose code is a list of one number. -/
def listedCode : Json ℚ := .object [(.text "status", .text "error"), (.text "code", .array [.int 429])]

theorem listed_code_escapes :
    normalizePayload "A" ⟨738887⟩ ⟨738893⟩ listedCode = .error .typeError ∧
      ¬ DeclaredOutcome "A" ⟨738887⟩ ⟨738893⟩ listedCode (normalizePayload "A" ⟨738887⟩ ⟨738893⟩ listedCode) :=
  ⟨rfl, fun declared => declared⟩

end Samples
end TwelveData
end LedgerLens

import LedgerLens.Models
import LedgerLens.Library.Checked
import LedgerLens.Library.DateText
import LedgerLens.Library.JsonDecimal

namespace LedgerLens

/-- What the bars admitted to a series have in common. -/
structure AdmittedBars (symbol : String) (startDate endDate : Date) (bars : List PriceBar) : Prop where
  symbol_eq : ∀ bar ∈ bars, bar.symbol = symbol
  inRange : ∀ bar ∈ bars, startDate ≤ bar.date ∧ bar.date ≤ endDate
  isFinite : ∀ bar ∈ bars, bar.adjustedClose.isFinite
  positive : ∀ bar ∈ bars, 0 < bar.adjustedClose.value
  distinct : (bars.map PriceBar.date).Nodup

/-- What every series of bars that reaches the domain is like. -/
structure SoundBars (symbol : String) (startDate endDate : Date) (bars : List PriceBar) : Prop
    extends AdmittedBars symbol startDate endDate bars where
  nonempty : bars ≠ []
  ascending : bars.Pairwise fun a b => a.date < b.date

section Series
variable {symbol : String} {startDate endDate : Date} {bars : List PriceBar}

theorem AdmittedBars.nil (symbol : String) (startDate endDate : Date) : AdmittedBars symbol startDate endDate [] := by
  constructor <;> simp

theorem AdmittedBars.snoc (admitted : AdmittedBars symbol startDate endDate bars) {date : Date} {price : Decimal}
    (fresh : date ∉ bars.map PriceBar.date) (inRange : startDate ≤ date ∧ date ≤ endDate) (isFinite : price.isFinite)
    (positive : 0 < price.value) : AdmittedBars symbol startDate endDate (bars ++ [⟨symbol, date, price⟩]) where
  symbol_eq := List.forall_mem_append.mpr ⟨admitted.symbol_eq, List.forall_mem_singleton.mpr rfl⟩
  inRange := List.forall_mem_append.mpr ⟨admitted.inRange, List.forall_mem_singleton.mpr inRange⟩
  isFinite := List.forall_mem_append.mpr ⟨admitted.isFinite, List.forall_mem_singleton.mpr isFinite⟩
  positive := List.forall_mem_append.mpr ⟨admitted.positive, List.forall_mem_singleton.mpr positive⟩
  distinct := by
    rw [List.map_append, List.map_singleton, List.nodup_append]
    refine ⟨admitted.distinct, List.nodup_singleton _, fun earlier listed last single same => ?_⟩
    rw [same, List.mem_singleton.mp single] at listed
    exact fresh listed

/-- Sorted by date, admitted bars make a series. -/
theorem AdmittedBars.sorted (admitted : AdmittedBars symbol startDate endDate bars) (nonempty : bars ≠ []) :
    SoundBars symbol startDate endDate (StableSort.sortOn PriceBar.date bars) := by
  have permuted := StableSort.sortOn_perm PriceBar.date bars
  have distinct : ((StableSort.sortOn PriceBar.date bars).map PriceBar.date).Nodup :=
    (permuted.map PriceBar.date).nodup_iff.mpr admitted.distinct
  have member {bar : PriceBar} := (permuted.mem_iff (a := bar)).mp
  have ascending := (StableSort.sortOn_sorted PriceBar.date bars).and (List.pairwise_map.mp distinct)
  exact {
    symbol_eq := fun bar listed => admitted.symbol_eq bar (member listed)
    inRange := fun bar listed => admitted.inRange bar (member listed)
    isFinite := fun bar listed => admitted.isFinite bar (member listed)
    positive := fun bar listed => admitted.positive bar (member listed)
    distinct := distinct
    nonempty := fun empty => nonempty (List.Perm.nil_eq (empty ▸ permuted)).symm
    ascending := ascending.imp fun both => lt_of_le_of_ne both.1 both.2 }

/-- Bars whose dates ascend are bars of distinct dates. -/
theorem SoundBars.of_ascending (symbol_eq : ∀ bar ∈ bars, bar.symbol = symbol)
    (inRange : ∀ bar ∈ bars, startDate ≤ bar.date ∧ bar.date ≤ endDate)
    (isFinite : ∀ bar ∈ bars, bar.adjustedClose.isFinite) (positive : ∀ bar ∈ bars, 0 < bar.adjustedClose.value)
    (nonempty : bars ≠ []) (ascending : bars.Pairwise fun a b => a.date < b.date) :
    SoundBars symbol startDate endDate bars where
  symbol_eq := symbol_eq
  inRange := inRange
  isFinite := isFinite
  positive := positive
  distinct := List.pairwise_map.mpr (ascending.imp fun earlier => ne_of_lt earlier)
  nonempty := nonempty
  ascending := ascending

end Series

variable (F : Type) [FloatDecimal F]

/-- `_serialize_price_bars` -/
def serializePriceBars (bars : List PriceBar) (symbol : String) (startDate endDate : Date) : String :=
  let payload : Json F := .object [
    (.text "schema_version", .int 1),
    (.text "symbol", .text symbol),
    (.text "start_date", .text startDate.isoformat),
    (.text "end_date", .text endDate.isoformat),
    (.text "bars", .array (bars.map fun bar => .object [
      (.text "date", .text bar.date.isoformat),
      (.text "adjusted_close", .text bar.adjustedClose.str)]))]
  payload.dumps

section Encoding

/-- The object that stands for a bar, its members in the order that they are read back in. -/
def barMembers (bar : PriceBar) : List (Json.Str × Json F) :=
  [(.text "adjusted_close", .text bar.adjustedClose.str), (.text "date", .text bar.date.isoformat)]

theorem bar_readsAs (bar : PriceBar) :
    Json.ReadsAs (F := F)
      (.object [(.text "date", .text bar.date.isoformat), (.text "adjusted_close", .text bar.adjustedClose.str)])
      (.object (barMembers F bar)) := by
  refine Json.readsAs_object (List.Perm.swap _ _ _) ?_
    (.cons ((Json.readsAs_text _).member _) (.cons ((Json.readsAs_text _).member _) .nil))
  exact Json.ascending_of_keys ["adjusted_close", "date"] rfl (by decide +kernel)

/-- What a serialized payload is read back as. -/
def payloadMembers (bars : List PriceBar) (symbol : String) (startDate endDate : Date) : List (Json.Str × Json F) := [
  (.text "bars", .array (bars.map fun bar => .object (barMembers F bar))),
  (.text "end_date", .text endDate.isoformat),
  (.text "schema_version", .int 1),
  (.text "start_date", .text startDate.isoformat),
  (.text "symbol", .text symbol)]

theorem loads_serialize (bars : List PriceBar) (symbol : String) (startDate endDate : Date) :
    Json.loads (serializePriceBars F bars symbol startDate endDate) =
      some (.object (payloadMembers F bars symbol startDate endDate)) := by
  have barsRead := Json.readsAs_array (List.forall₂_map_left_iff.mpr (List.forall₂_map_right_iff.mpr
    (List.forall₂_same.mpr fun bar (_ : bar ∈ bars) => bar_readsAs F bar)))
  -- Turned around, the members stand as they are read back but for the version, which comes last.
  have permuted {a b c d e : Json.Str × Json F} : [a, b, c, d, e].Perm [c, e, d, b, a] :=
    (((List.perm_append_singleton c [d, e]).symm.cons b).cons a).trans (List.reverse_perm [c, e, d, b, a])
  refine Json.loads_dumps (Json.readsAs_object permuted ?_ (.cons (barsRead.member _)
    (.cons ((Json.readsAs_text _).member _) (.cons (Json.readsAs_one.member _)
    (.cons ((Json.readsAs_text _).member _) (.cons ((Json.readsAs_text _).member _) .nil))))))
  exact Json.ascending_of_keys ["bars", "end_date", "schema_version", "start_date", "symbol"] rfl (by decide +kernel)

end Encoding

variable {F} [DigitDatabase]

/-- The member of an object under a key, which has to be there, read by a conversion. -/
def readBarFields (rawBar : List (Json.Str × Json F)) : Except Error (Date × Decimal) := do
  let invalid : Error := .valueError "cache price bar is invalid"
  let sessionDate ← match Json.get? "date" rawBar with
    | some (.string (.text raw)) => match Date.fromisoformat raw with
      | some date => .ok date
      | none => .error invalid
    | _ => .error invalid
  let adjustedClose ← match Json.get? "adjusted_close" rawBar with
    | none => .error invalid
    | some raw => match Decimal.ofJson raw with
      | .ok price => .ok price
      | .error .overflowError => .error .overflowError
      | .error _ => .error invalid
  return (sessionDate, adjustedClose)

/-- One pass of the loop in `_deserialize_price_bars`; `seen_dates` are the dates of the bars so far. -/
def readBar (symbol : String) (startDate endDate : Date) (bars : List PriceBar) (rawBar : Json F) :
    Except Error (List PriceBar) :=
  match rawBar with
  | .object members => do
    let (sessionDate, adjustedClose) ← readBarFields members
    if sessionDate ∈ bars.map PriceBar.date ∨ ¬ (startDate ≤ sessionDate ∧ sessionDate ≤ endDate) ∨
        ¬ adjustedClose.isFinite ∨ adjustedClose.value ≤ 0 then
      .error (.valueError "cache price bar violates data invariants")
    else .ok (bars ++ [⟨symbol, sessionDate, adjustedClose⟩])
  | _ => .error (.valueError "cache price bar must be an object")

/-- The metadata of a payload names the query. -/
def matchesQuery (payload : List (Json.Str × Json F)) (symbol : String) (startDate endDate : Date) : Bool :=
  (Json.get? "schema_version" payload).any (·.eqInt 1) && (Json.get? "symbol" payload).any (·.eqText symbol) &&
    (Json.get? "start_date" payload).any (·.eqText startDate.isoformat) &&
    (Json.get? "end_date" payload).any (·.eqText endDate.isoformat)

variable (F) in
/-- `_deserialize_price_bars` -/
def deserializePriceBars (rawPayload : String) (symbol : String) (startDate endDate : Date) :
    Except Error (List PriceBar) :=
  match (Json.loads rawPayload : Option (Json F)) with
  | none => .error (.valueError "cache payload is not valid JSON")
  | some (.object payload) =>
    if ¬ matchesQuery payload symbol startDate endDate then
      .error (.valueError "cache payload metadata does not match the query")
    else match Json.get? "bars" payload with
      | some (.array (rawBar :: rest)) => do
        let bars ← (rawBar :: rest).foldlM (readBar symbol startDate endDate) []
        if bars ≠ StableSort.sortOn PriceBar.date bars then .error (.valueError "cache price bars are not ordered")
        else .ok bars
      | _ => .error (.valueError "cache payload has no price bars")
  | some _ => .error (.valueError "cache payload must be an object")

section Soundness
variable {symbol : String} {startDate endDate : Date} {bars : List PriceBar}

theorem readBar_eq_ok {rawBar : Json F} {next : List PriceBar}
    (read : readBar symbol startDate endDate bars rawBar = .ok next) :
    ∃ date price, next = bars ++ [⟨symbol, date, price⟩] ∧ date ∉ bars.map PriceBar.date ∧
      (startDate ≤ date ∧ date ≤ endDate) ∧ price.isFinite ∧ 0 < price.value := by
  cases rawBar with
  | object members =>
    obtain ⟨⟨date, price⟩, _, read⟩ := Checked.bind_eq_ok.mp read
    obtain ⟨passed, read⟩ := Checked.guard_eq_ok.mp read
    simp only [not_or, not_not, not_le] at passed
    exact ⟨date, price, (Except.ok.inj read).symm, passed⟩
  | _ => cases read

/-- Whatever a cached text holds, what is read from it is a series of the query. -/
theorem deserializePriceBars_sound {rawPayload : String}
    (read : deserializePriceBars F rawPayload symbol startDate endDate = .ok bars) :
    SoundBars symbol startDate endDate bars := by
  unfold deserializePriceBars at read
  split at read
  · cases read
  · obtain ⟨_, read⟩ := Checked.guard_eq_ok.mp read
    split at read
    · next rawBar rest _ =>
      obtain ⟨_, run, read⟩ := Checked.bind_eq_ok.mp read
      obtain ⟨inOrder, read⟩ := Checked.guard_eq_ok.mp read
      cases read
      have admitted : AdmittedBars symbol startDate endDate bars ∧ bars.length = (rawBar :: rest).length := by
        refine Checked.foldlM_prefix_invariant
          (fun seen bars => AdmittedBars symbol startDate endDate bars ∧ bars.length = seen.length)
          ⟨.nil symbol startDate endDate, rfl⟩ run ?_
        intro seen raw later bars next _ kept step
        obtain ⟨date, price, rfl, fresh, inRange, isFinite, positive⟩ := readBar_eq_ok step
        exact ⟨kept.1.snoc fresh inRange isFinite positive, by simp [kept.2]⟩
      have nonempty : bars ≠ [] := fun empty => by simp [empty] at admitted
      have sorted := admitted.1.sorted nonempty
      rwa [← not_not.mp inOrder] at sorted
    · cases read
  · cases read

end Soundness

section RoundTrip
variable {symbol : String} {startDate endDate : Date} {bars : List PriceBar}

theorem readBar_barMembers {bar : PriceBar} (owned : bar.symbol = symbol) (fresh : bar.date ∉ bars.map PriceBar.date)
    (inRange : startDate ≤ bar.date ∧ bar.date ≤ endDate) (isFinite : bar.adjustedClose.isFinite)
    (positive : 0 < bar.adjustedClose.value) (date : bar.date.Exists) (price : bar.adjustedClose.Exists) :
    readBar symbol startDate endDate bars (.object (barMembers F bar)) = .ok (bars ++ [bar]) := by
  have fields : readBarFields (barMembers F bar) = .ok (bar.date, bar.adjustedClose) := by
    have dateField : Json.get? "date" (barMembers F bar) = some (.text bar.date.isoformat) := rfl
    have priceField : Json.get? "adjusted_close" (barMembers F bar) = some (.text bar.adjustedClose.str) := rfl
    simp only [readBarFields, dateField, priceField, Date.fromisoformat_isoformat date, Decimal.ofJson,
      Decimal.parse_str_of_exists isFinite price, Decimal.orInvalid]
    rfl
  have passed : ¬ (bar.date ∈ bars.map PriceBar.date ∨ ¬ (startDate ≤ bar.date ∧ bar.date ≤ endDate) ∨
      ¬ bar.adjustedClose.isFinite ∨ bar.adjustedClose.value ≤ 0) := by
    simp only [not_or, not_not, not_le]
    exact ⟨fresh, inRange, isFinite, positive⟩
  rw [readBar, fields, Checked.ok_bind]
  simp only [if_neg passed, ← owned]

theorem readBars_barMembers {seen : List PriceBar} (admitted : AdmittedBars symbol startDate endDate (seen ++ bars))
    (start : startDate.Exists) (finish : endDate.Exists) (prices : ∀ bar ∈ bars, bar.adjustedClose.Exists) :
    (bars.map fun bar => (.object (barMembers F bar) : Json F)).foldlM (readBar symbol startDate endDate) seen =
      .ok (seen ++ bars) := by
  induction bars generalizing seen with
  | nil => rw [List.append_nil]; rfl
  | cons bar bars ih =>
    obtain ⟨price, prices⟩ := List.forall_mem_cons.mp prices
    have listed : bar ∈ seen ++ bar :: bars := by simp
    have inRange := admitted.inRange bar listed
    have fresh : bar.date ∉ seen.map PriceBar.date := by
      have distinct := admitted.distinct
      rw [List.map_append, List.map_cons] at distinct
      exact fun earlier => (List.nodup_append.mp distinct).2.2 _ earlier _ List.mem_cons_self rfl
    have later : AdmittedBars symbol startDate endDate ((seen ++ [bar]) ++ bars) := by simpa using admitted
    have rest := ih later prices
    rw [List.map_cons, List.foldlM_cons, readBar_barMembers (admitted.symbol_eq bar listed) fresh inRange
      (admitted.isFinite bar listed) (admitted.positive bar listed) (start.between finish inRange.1 inRange.2) price,
      Checked.ok_bind, rest, List.append_assoc]
    rfl

omit [DigitDatabase] in
/-- The metadata of a payload names the query it was made for, and no other. -/
theorem matchesQuery_payloadMembers {symbol' : String} {startDate' endDate' : Date} :
    matchesQuery (payloadMembers F bars symbol startDate endDate) symbol' startDate' endDate' ↔
      symbol = symbol' ∧ startDate.isoformat = startDate'.isoformat ∧ endDate.isoformat = endDate'.isoformat := by
  have version : Json.get? "schema_version" (payloadMembers F bars symbol startDate endDate) = some (.int 1) := rfl
  have symbolField : Json.get? "symbol" (payloadMembers F bars symbol startDate endDate) = some (.text symbol) := rfl
  have start : Json.get? "start_date" (payloadMembers F bars symbol startDate endDate) =
      some (.text startDate.isoformat) := rfl
  have finish : Json.get? "end_date" (payloadMembers F bars symbol startDate endDate) =
      some (.text endDate.isoformat) := rfl
  simp [matchesQuery, version, symbolField, start, finish, Json.eqInt, Json.toInt?, Json.eqText, and_assoc]

/-- A serialized series is read back as it was. -/
theorem deserialize_serialize (sound : SoundBars symbol startDate endDate bars) (start : startDate.Exists)
    (finish : endDate.Exists) (prices : ∀ bar ∈ bars, bar.adjustedClose.Exists) :
    deserializePriceBars F (serializePriceBars F bars symbol startDate endDate) symbol startDate endDate =
      .ok bars := by
  have matched : matchesQuery (payloadMembers F bars symbol startDate endDate) symbol startDate endDate :=
    matchesQuery_payloadMembers.mpr ⟨rfl, rfl, rfl⟩
  have field : Json.get? "bars" (payloadMembers F bars symbol startDate endDate) =
      some (.array (bars.map fun bar => .object (barMembers F bar))) := rfl
  have admitted : AdmittedBars symbol startDate endDate ([] ++ bars) := sound.toAdmittedBars
  have run := readBars_barMembers (F := F) admitted start finish prices
  have ordered : StableSort.sortOn PriceBar.date bars = bars :=
    StableSort.sortOn_of_sorted (sound.ascending.imp le_of_lt)
  obtain ⟨bar, rest, rfl⟩ := List.exists_cons_of_ne_nil sound.nonempty
  rw [List.map_cons] at run
  simp only [deserializePriceBars, loads_serialize, field, matched, not_true, if_false, List.map_cons, run]
  rw [List.nil_append, Checked.ok_bind, if_neg (not_not.mpr ordered.symm)]

/-- Under another query nothing is read, whatever the bars are. -/
theorem deserialize_serialize_other {symbol' : String} {startDate' endDate' : Date} (start : startDate.Exists)
    (finish : endDate.Exists) (start' : startDate'.Exists) (finish' : endDate'.Exists)
    (other : ¬ (symbol = symbol' ∧ startDate = startDate' ∧ endDate = endDate')) :
    deserializePriceBars F (serializePriceBars F bars symbol startDate endDate) symbol' startDate' endDate' =
      .error (.valueError "cache payload metadata does not match the query") := by
  have unmatched :
      ¬ matchesQuery (payloadMembers F bars symbol startDate endDate) symbol' startDate' endDate' := by
    rw [matchesQuery_payloadMembers]
    rintro ⟨sameSymbol, sameStart, sameEnd⟩
    exact other ⟨sameSymbol, Date.isoformat_injective start start' sameStart,
      Date.isoformat_injective finish finish' sameEnd⟩
  simp only [deserializePriceBars, loads_serialize]
  rw [if_pos unmatched]

end RoundTrip

end LedgerLens

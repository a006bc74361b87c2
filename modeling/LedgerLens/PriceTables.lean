import LedgerLens.Valuation
import LedgerLens.Library.AsOf
import LedgerLens.Library.Timeline

namespace LedgerLens

section SortedSets
variable {κ : Type} [LinearOrder κ]

@[simp] theorem mem_sortedSet {values : List κ} {value : κ} : value ∈ sortedSet values ↔ value ∈ values := by
  rw [sortedSet, StableSort.mem_sortOn, List.mem_dedup]

theorem sortedSet_ascending (values : List κ) : (sortedSet values).Pairwise (· < ·) := by
  have sorted := StableSort.sortOn_sorted id values.dedup
  have distinct : (sortedSet values).Nodup :=
    (StableSort.sortOn_perm id values.dedup).nodup_iff.mpr values.nodup_dedup
  exact (sorted.and distinct).imp fun both => lt_of_le_of_ne both.1 both.2

theorem sortedSet_congr {xs ys : List κ} (same : ∀ value, value ∈ xs ↔ value ∈ ys) : sortedSet xs = sortedSet ys :=
  Timeline.eq_of_ascending (sortedSet_ascending xs) (sortedSet_ascending ys) fun value => by
    rw [mem_sortedSet, mem_sortedSet, same]

end SortedSets

def PriceBar.price (bar : PriceBar) : ℚ := bar.adjustedClose.value

/-- A table holds the price of each of the bars under its date. -/
structure TableOf (bars : List PriceBar) (table : Dict Date ℚ) : Prop where
  distinct : (bars.map PriceBar.date).Nodup
  find : ∀ day, table.get? day = (bars.find? fun bar => bar.date = day).map PriceBar.price
  positive : ∀ bar ∈ bars, 0 < bar.price

theorem TableOf.nil : TableOf [] .empty := ⟨.nil, fun _ => rfl, by simp⟩

theorem TableOf.mem_keys {bars : List PriceBar} {table : Dict Date ℚ} (priced : TableOf bars table) {day : Date} :
    day ∈ table.keys ↔ ∃ bar ∈ bars, bar.date = day := by
  rw [← not_iff_not, ← Dict.get?_eq_none, priced.find, Option.map_eq_none_iff, List.find?_eq_none]
  simp

theorem TableOf.snoc {bars : List PriceBar} {table : Dict Date ℚ} (priced : TableOf bars table) {bar : PriceBar}
    (positive : 0 < bar.price) (fresh : table.get? bar.date = none) :
    TableOf (bars ++ [bar]) (table.set bar.date bar.price) := by
  have absent : ∀ other ∈ bars, other.date ≠ bar.date := by
    intro other member same
    exact Dict.get?_eq_none.mp fresh (priced.mem_keys.mpr ⟨other, member, same⟩)
  refine ⟨?_, fun day => ?_, List.forall_mem_append.mpr ⟨priced.positive, List.forall_mem_singleton.mpr positive⟩⟩
  · rw [List.map_append, List.nodup_append]
    refine ⟨priced.distinct, List.nodup_singleton _, ?_⟩
    intro date listed other single
    obtain ⟨earlier, member, rfl⟩ := List.mem_map.mp listed
    cases List.mem_singleton.mp single
    exact absent earlier member
  · rw [Dict.get?_set, priced.find, List.find?_append]
    split
    · next same =>
      have noBar : (bars.find? fun other => other.date = day) = none := by
        rw [List.find?_eq_none, ← same]
        simpa using absent
      simp [noBar, same]
    · next other => simp [other]

variable [UnicodeDatabase]

/-- The bars given for a symbol. -/
def barsOf (priceBarsBySymbol : Dict String (List PriceBar)) (symbol : String) : List PriceBar :=
  (normalizedInput priceBarsBySymbol).getD symbol []

/-- The bars given for a symbol within a range of dates. -/
def rangeBars (priceBarsBySymbol : Dict String (List PriceBar)) (startDate endDate : Date) (symbol : String) :
    List PriceBar :=
  (barsOf priceBarsBySymbol symbol).filter fun bar => startDate ≤ bar.date ∧ bar.date ≤ endDate

theorem addPriceBar_foldlM_tableOf {symbol : String} {startDate endDate : Date} {bars : List PriceBar}
    {table : Dict Date ℚ} (run : bars.foldlM (addPriceBar symbol startDate endDate) .empty = .ok table) :
    TableOf (bars.filter fun bar => startDate ≤ bar.date ∧ bar.date ≤ endDate) table := by
  refine Checked.foldlM_prefix_invariant (fun seen table =>
    TableOf (seen.filter fun bar => startDate ≤ bar.date ∧ bar.date ≤ endDate) table) .nil run ?_
  intro seen bar later table next _ priced step
  obtain ⟨_, step⟩ := Checked.guard_eq_ok.mp step
  obtain ⟨sound, step⟩ := Checked.guard_eq_ok.mp step
  rw [List.filter_append]
  split at step
  · next outside =>
    cases step
    simp only [List.filter_cons, List.filter_nil, decide_eq_true_eq, if_neg outside, List.append_nil]
    exact priced
  · next inside =>
    obtain ⟨fresh, step⟩ := Checked.guard_eq_ok.mp step
    cases step
    simp only [List.filter_cons, List.filter_nil, decide_eq_true_eq, if_pos (not_not.mp inside)]
    refine priced.snoc ?_ (by simpa using fresh)
    simp only [not_or, not_le] at sound
    exact sound.2

/-- The dictionary of price tables of the required symbols. -/
structure PricesOf (priceBarsBySymbol : Dict String (List PriceBar)) (startDate endDate : Date)
    (symbols : List String) (prices : Dict String (Dict Date ℚ)) : Prop where
  absent : ∀ symbol, symbol ∉ symbols → prices.get? symbol = none
  table : ∀ symbol ∈ symbols, ∃ table, prices.get? symbol = some table ∧
    TableOf (rangeBars priceBarsBySymbol startDate endDate symbol) table
  observed : ∀ symbol ∈ symbols, rangeBars priceBarsBySymbol startDate endDate symbol ≠ []

theorem validatedPrices_pricesOf {symbols : List String} {priceBarsBySymbol : Dict String (List PriceBar)}
    {startDate endDate : Date} {prices : Dict String (Dict Date ℚ)}
    (run : validatedPrices symbols priceBarsBySymbol startDate endDate = .ok prices) :
    PricesOf priceBarsBySymbol startDate endDate symbols prices := by
  refine Checked.foldlM_prefix_invariant (PricesOf priceBarsBySymbol startDate endDate)
    ⟨fun _ _ => rfl, by simp, by simp⟩ run ?_
  intro seen symbol later prices next _ known step
  obtain ⟨table, filled, step⟩ := Checked.bind_eq_ok.mp step
  obtain ⟨nonempty, step⟩ := Checked.guard_eq_ok.mp step
  cases step
  have priced : TableOf (rangeBars priceBarsBySymbol startDate endDate symbol) table :=
    addPriceBar_foldlM_tableOf filled
  refine ⟨fun other outside => ?_, fun other listed => ?_, fun other listed => ?_⟩
  · rw [List.mem_append, not_or, List.mem_singleton] at outside
    rw [Dict.get?_set, if_neg (Ne.symm outside.2)]
    exact known.absent other outside.1
  · rw [Dict.get?_set]
    split
    · next same => exact ⟨table, rfl, same ▸ priced⟩
    · next different =>
      have earlier := (List.mem_append.mp listed).resolve_right fun last => different (List.mem_singleton.mp last).symm
      exact known.table other earlier
  · rcases List.mem_append.mp listed with earlier | last
    · exact known.observed other earlier
    · cases List.mem_singleton.mp last
      intro empty
      obtain ⟨entry, rest, listed⟩ := List.exists_cons_of_ne_nil nonempty
      have key : entry.1 ∈ table.keys := by
        rw [Dict.mem_keys, listed]
        exact ⟨entry.2, List.mem_cons_self⟩
      obtain ⟨bar, member, _⟩ := priced.mem_keys.mp key
      rw [empty] at member
      cases member

/-- The days on which one of the symbols has a bar in the range, in ascending order. -/
def marketCalendar (priceBarsBySymbol : Dict String (List PriceBar)) (startDate endDate : Date)
    (symbols : List String) : List Date :=
  sortedSet (symbols.flatMap fun symbol =>
    (rangeBars priceBarsBySymbol startDate endDate symbol).map PriceBar.date)

theorem mem_marketCalendar {priceBarsBySymbol : Dict String (List PriceBar)} {startDate endDate day : Date}
    {symbols : List String} :
    day ∈ marketCalendar priceBarsBySymbol startDate endDate symbols ↔
      ∃ symbol ∈ symbols, ∃ bar ∈ rangeBars priceBarsBySymbol startDate endDate symbol, bar.date = day := by
  simp [marketCalendar]

theorem marketCalendar_within {priceBarsBySymbol : Dict String (List PriceBar)} {startDate endDate day : Date}
    {symbols : List String} (listed : day ∈ marketCalendar priceBarsBySymbol startDate endDate symbols) :
    startDate ≤ day ∧ day ≤ endDate := by
  obtain ⟨symbol, _, bar, member, rfl⟩ := mem_marketCalendar.mp listed
  simpa using (List.mem_filter.mp member).2

theorem marketCalendar_ascending (priceBarsBySymbol : Dict String (List PriceBar)) (startDate endDate : Date)
    (symbols : List String) : (marketCalendar priceBarsBySymbol startDate endDate symbols).Pairwise (· < ·) :=
  sortedSet_ascending _

/-- The valuation dates of the code. -/
theorem PricesOf.calendar {priceBarsBySymbol : Dict String (List PriceBar)} {startDate endDate : Date}
    {symbols : List String} {prices : Dict String (Dict Date ℚ)}
    (known : PricesOf priceBarsBySymbol startDate endDate symbols prices) :
    sortedSet (prices.entries.flatMap fun entry => entry.2.keys) =
      marketCalendar priceBarsBySymbol startDate endDate symbols := by
  refine sortedSet_congr fun day => ?_
  simp only [List.mem_flatMap, List.mem_map]
  constructor
  · rintro ⟨⟨symbol, table⟩, listed, key⟩
    have found : prices.get? symbol = some table := Dict.get?_eq_some.mpr listed
    by_cases required : symbol ∈ symbols
    · obtain ⟨other, same, priced⟩ := known.table symbol required
      cases Option.some.inj (found.symm.trans same)
      exact ⟨symbol, required, priced.mem_keys.mp key⟩
    · rw [known.absent symbol required] at found
      cases found
  · rintro ⟨symbol, required, bar, member, same⟩
    obtain ⟨table, found, priced⟩ := known.table symbol required
    exact ⟨(symbol, table), Dict.get?_eq_some.mp found, priced.mem_keys.mpr ⟨bar, member, same⟩⟩

omit [UnicodeDatabase] in
/-- A day's bars replace the prices known before; a symbol without one keeps its price. -/
theorem observePrices_get? (prices : Dict String (Dict Date ℚ)) (day : Date) (latest : Dict String ℚ)
    (symbol : String) :
    (observePrices prices day latest).get? symbol =
      ((prices.get? symbol).bind fun table => table.get? day).or (latest.get? symbol) := by
  obtain ⟨entries, distinct⟩ := prices
  have looked : (Dict.get? ⟨entries, distinct⟩ symbol).bind (fun table : Dict Date ℚ => table.get? day) =
      (entries.find? fun entry => entry.1 = symbol).bind fun entry => entry.2.get? day := Option.bind_map ..
  rw [looked, observePrices]
  clear looked
  simp only
  induction entries generalizing latest with
  | nil => rfl
  | cons entry rest ih =>
    obtain ⟨once, others⟩ := List.nodup_cons.mp distinct
    rw [List.foldl_cons, ih _ others, List.find?_cons]
    by_cases own : entry.1 = symbol
    · have noOther : (rest.find? fun other => other.1 = symbol) = none := by
        rw [List.find?_eq_none]
        intro other member same
        exact once (own ▸ of_decide_eq_true same ▸ List.mem_map_of_mem member)
      rw [noOther, decide_eq_true own]
      simp only [Option.bind_none, Option.none_or, Option.bind_some]
      cases entry.2.get? day with
      | none => rfl
      | some price => simp [Dict.get?_set, own]
    · rw [decide_eq_false own]
      refine congrArg (Option.or _) ?_
      cases entry.2.get? day with
      | none => rfl
      | some price => simp [Dict.get?_set, own]

end LedgerLens

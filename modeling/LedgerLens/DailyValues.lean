import LedgerLens.PriceTables
import LedgerLens.Replays

namespace LedgerLens
open Decimal (Context)
open RunningSum (total)

theorem mem_activePositions {positions : Dict String ℚ} {symbol : String} {quantity : ℚ} :
    (symbol, quantity) ∈ activePositions positions ↔ positions.get? symbol = some quantity ∧ quantity ≠ 0 := by
  simp [activePositions, Dict.get?_eq_some]

theorem active_iff {positions : Dict String ℚ} {symbol : String} :
    symbol ∈ (activePositions positions).map Prod.fst ↔ positions.getD symbol 0 ≠ 0 := by
  rw [List.mem_map]
  constructor
  · rintro ⟨⟨_, quantity⟩, listed, rfl⟩
    obtain ⟨found, nonzero⟩ := mem_activePositions.mp listed
    rw [Dict.getD, found]
    exact nonzero
  · intro nonzero
    cases found : positions.get? symbol with
    | none =>
      rw [Dict.getD, found] at nonzero
      exact absurd rfl nonzero
    | some quantity =>
      rw [Dict.getD, found] at nonzero
      exact ⟨(symbol, quantity), mem_activePositions.mpr ⟨found, nonzero⟩, rfl⟩

/-- The positions at the given prices. -/
def marketValue (price : String → Option ℚ) (positions : Dict String ℚ) : ℚ :=
  ((activePositions positions).map fun entry => entry.2 * (price entry.1).getD 0).sum

/-- Every position has a price, and the account a positive total at these prices. -/
def Valuable (price : String → Option ℚ) (account : Account) : Prop :=
  (∀ entry ∈ activePositions account.positions, (price entry.1).isSome) ∧
    0 < account.cashBalance + marketValue price account.positions

instance (price : String → Option ℚ) (account : Account) : Decidable (Valuable price account) :=
  inferInstanceAs (Decidable (_ ∧ _))

theorem Valuable.congr {price price' : String → Option ℚ} {account : Account}
    (same : ∀ entry ∈ activePositions account.positions, price entry.1 = price' entry.1) :
    (Valuable price account ↔ Valuable price' account) ∧
      marketValue price account.positions = marketValue price' account.positions := by
  have values : marketValue price account.positions = marketValue price' account.positions :=
    congrArg List.sum (List.map_congr_left fun entry listed => by rw [same entry listed])
  refine ⟨?_, values⟩
  unfold Valuable
  rw [values]
  refine and_congr_left fun _ => forall₂_congr fun entry listed => ?_
  rw [same entry listed]

variable [UnicodeDatabase]

/-- The account a ledger leads to by the end of a day, from the transactions up to that day alone,
with all the external flow until then. -/
def accountOn (transactions : List Transaction) (day : Date) : Except Error (Account × ℚ) :=
  replay .exact (ledgerSorted (transactions.filter fun t => t.utcDate ≤ day))

/-- The price of a symbol in its bar with the greatest date from the start of the range to a day. -/
def lastPrice (priceBarsBySymbol : Dict String (List PriceBar)) (startDate day : Date) (symbol : String) : Option ℚ :=
  (AsOf.latest PriceBar.date ((barsOf priceBarsBySymbol symbol).filter fun bar => startDate ≤ bar.date) day).map
    PriceBar.price

/-- The total value of an account on a day, if it has one. -/
def valueOn (priceBarsBySymbol : Dict String (List PriceBar)) (startDate day : Date) (account : Account) : Option ℚ :=
  let price := lastPrice priceBarsBySymbol startDate day
  if Valuable price account then some (account.cashBalance + marketValue price account.positions) else none

/-- What a day contributes to a valuation, worked out from scratch: its date, the total value and the cash. -/
def pointOn (transactions : List Transaction) (priceBarsBySymbol : Dict String (List PriceBar))
    (startDate day : Date) : Option (Date × ℚ × ℚ) :=
  match accountOn transactions day with
  | .ok (account, _) =>
    (valueOn priceBarsBySymbol startDate day account).map fun totalValue => (day, totalValue, account.cashBalance)
  | .error _ => none

/-- The code's own restriction to the range finds the same price. -/
theorem lastPrice_eq_rangeBars {priceBarsBySymbol : Dict String (List PriceBar)} {startDate endDate day : Date}
    (within : day ≤ endDate) (symbol : String) :
    lastPrice priceBarsBySymbol startDate day symbol =
      (AsOf.latest PriceBar.date (rangeBars priceBarsBySymbol startDate endDate symbol) day).map PriceBar.price := by
  refine congrArg (Option.map PriceBar.price) (AsOf.latest_congr ?_)
  rw [rangeBars, List.filter_filter, List.filter_filter]
  refine List.filter_congr fun bar _ => ?_
  rw [← Bool.decide_and, ← Bool.decide_and]
  refine decide_eq_decide.mpr ⟨fun ⟨early, late⟩ => ⟨early, late, early.trans within⟩, ?_⟩
  exact fun ⟨early, late⟩ => ⟨early, late.1⟩

/-- What is known on a day is fixed by the transactions and the bars up to that day. -/
theorem pointOn_congr {transactions transactions' : List Transaction}
    {priceBarsBySymbol priceBarsBySymbol' : Dict String (List PriceBar)} (startDate : Date) {day : Date}
    (sameLedger : (transactions.filter fun t => t.utcDate ≤ day) = transactions'.filter fun t => t.utcDate ≤ day)
    (sameBars : ∀ symbol, ((barsOf priceBarsBySymbol symbol).filter fun bar => bar.date ≤ day) =
      (barsOf priceBarsBySymbol' symbol).filter fun bar => bar.date ≤ day) :
    pointOn transactions priceBarsBySymbol startDate day = pointOn transactions' priceBarsBySymbol' startDate day := by
  have samePrices : lastPrice priceBarsBySymbol startDate day = lastPrice priceBarsBySymbol' startDate day := by
    funext symbol
    refine congrArg (Option.map PriceBar.price) (AsOf.latest_congr ?_)
    rw [List.filter_comm, sameBars, List.filter_comm]
  unfold pointOn accountOn valueOn
  rw [sameLedger, samePrices]

/-- The symbols held when the range begins or traded within it. -/
structure Requires (transactions : List Transaction) (startDate endDate : Date) (symbols : List String) : Prop where
  range : startDate ≤ endDate
  checked : ∀ t ∈ transactions, t.Valid ∧ t.occurredAt.astimezoneUtc.isSome
  mem : ∀ symbol, symbol ∈ symbols ↔
    total (Transaction.signedQuantity symbol) (transactions.filter fun t => t.utcDate < startDate) ≠ 0 ∨
      ∃ t ∈ transactions, startDate ≤ t.utcDate ∧ t.utcDate ≤ endDate ∧ t.symbol = some symbol

theorem openingPositions_eq {startDate : Date} {ordered : List Transaction} {positions : Dict String ℚ}
    (valid : ∀ t ∈ ordered, t.Valid) (run : openingPositions .exact startDate ordered = .ok positions) :
    positions = (ordered.filter fun t => t.utcDate < startDate).foldl Transaction.adjust .empty := by
  have replayed : PositionsNonneg positions ∧
      positions = (ordered.filter fun t => t.utcDate < startDate).foldl Transaction.adjust .empty := by
    refine Checked.foldlM_prefix_invariant (fun seen positions => PositionsNonneg positions ∧
      positions = (seen.filter fun t => t.utcDate < startDate).foldl Transaction.adjust .empty)
      ⟨positionsNonneg_empty, rfl⟩ run ?_
    rintro seen t later positions next whole ⟨nonneg, rfl⟩ step
    obtain ⟨date, dated, step⟩ := Checked.bind_eq_ok.mp step
    obtain ⟨_, rfl⟩ := transactionDate_eq_ok.mp dated
    rw [List.filter_append]
    split at step
    · next traded =>
      cases step
      simp only [List.filter_cons, List.filter_nil, decide_eq_true_eq, if_neg (not_lt.mpr traded), List.append_nil]
      exact ⟨nonneg, trivial⟩
    · next before =>
      have own : t.Valid := valid t (whole ▸ by simp)
      simp only [List.filter_cons, List.filter_nil, decide_eq_true_eq, if_pos (not_le.mp before), List.foldl_concat]
      exact applyPositionChange_adjust own nonneg step
  exact replayed.2

theorem requiredPriceSymbols_requires {transactions : List Transaction} {startDate endDate : Date}
    {symbols : List String} (run : requiredPriceSymbols .exact transactions startDate endDate = .ok symbols) :
    Requires transactions startDate endDate symbols := by
  obtain ⟨_, validRange, run⟩ := Checked.bind_eq_ok.mp run
  obtain ⟨ordered, sorted, run⟩ := Checked.bind_eq_ok.mp run
  obtain ⟨positions, opened, run⟩ := Checked.bind_eq_ok.mp run
  obtain ⟨dates, dated, run⟩ := Checked.bind_eq_ok.mp run
  cases Checked.pure_eq_ok.mp run
  obtain ⟨checked, rfl⟩ := orderedTransactions_eq_ok.mp sorted
  have inLedger : ∀ {t}, t ∈ ledgerSorted (transactions.filter fun t => t.utcDate ≤ endDate) ↔
      t ∈ transactions ∧ t.utcDate ≤ endDate := by
    intro t
    rw [ledgerSorted, StableSort.mem_sortOn, List.mem_filter, decide_eq_true_eq]
  have valid : ∀ t ∈ ledgerSorted (transactions.filter fun t => t.utcDate ≤ endDate), t.Valid :=
    fun t member => (checked t (inLedger.mp member).1).1
  have range : startDate ≤ endDate := not_lt.mp (Checked.guard_eq_ok.mp validRange).1
  refine ⟨range, checked, fun symbol => ?_⟩
  have opening : positions.getD symbol 0 =
      total (Transaction.signedQuantity symbol) (transactions.filter fun t => t.utcDate < startDate) := by
    rw [openingPositions_eq valid opened, adjust_foldl_getD fun t member => valid t (List.mem_of_mem_filter member),
      Dict.getD_empty, zero_add, ledgerSorted, StableSort.filter_sortOn]
    refine (RunningSum.total_perm _ (StableSort.sortOn_perm _ _)).trans (congrArg _ ?_)
    exact Timeline.filter_filter_of_imp fun t _ before => before.le.trans range
  have datesEq : dates = (ledgerSorted (transactions.filter fun t => t.utcDate ≤ endDate)).map Transaction.utcDate := by
    refine Except.ok.inj (dated.symm.trans (Checked.mapM_eq_ok fun t member => ?_))
    exact transactionDate_eq_ok.mpr ⟨(checked t (inLedger.mp member).1).2, rfl⟩
  rw [mem_sortedSet, List.mem_append, active_iff, opening, datesEq, ← List.map_prod_right_eq_zip]
  refine or_congr_right ?_
  simp only [List.mem_filterMap, List.mem_filter, List.mem_map, decide_eq_true_eq]
  constructor
  · rintro ⟨_, ⟨⟨t, member, rfl⟩, after⟩, own⟩
    exact ⟨t, (inLedger.mp member).1, after, (inLedger.mp member).2, own⟩
  · rintro ⟨t, member, after, before, own⟩
    exact ⟨_, ⟨⟨t, inLedger.mpr ⟨member, before⟩, rfl⟩, after⟩, own⟩

omit [UnicodeDatabase] in
/-- While a symbol is not traded its position stays what it was. -/
theorem total_signedQuantity_untraded {transactions : List Transaction} {symbol : String} {startDate : Date}
    {p : Date → Prop} [DecidablePred p] (reaches : ∀ date, date < startDate → p date)
    (untraded : ∀ t ∈ transactions, startDate ≤ t.utcDate → p t.utcDate → t.symbol ≠ some symbol) :
    total (Transaction.signedQuantity symbol) (transactions.filter fun t => p t.utcDate) =
      total (Transaction.signedQuantity symbol) (transactions.filter fun t => t.utcDate < startDate) := by
  have earlier : ((transactions.filter fun t => p t.utcDate).filter fun t => t.utcDate < startDate) =
      transactions.filter fun t => t.utcDate < startDate :=
    Timeline.filter_filter_of_imp fun t _ early => reaches _ early
  have since : ∀ t ∈ (transactions.filter fun t => p t.utcDate).filter fun t => !decide (t.utcDate < startDate),
      t.signedQuantity symbol = 0 := by
    intro t member
    obtain ⟨member, late⟩ := List.mem_filter.mp member
    obtain ⟨member, reached⟩ := List.mem_filter.mp member
    simp only [Bool.not_eq_true', decide_eq_false_iff_not, not_lt] at late
    exact if_neg fun own => untraded t member late (of_decide_eq_true reached) own
  rw [← RunningSum.total_filter_add _ (fun t : Transaction => decide (t.utcDate < startDate)), earlier,
    RunningSum.total_eq_zero since, add_zero]

/-- A symbol held on a day of the range was held when it began or traded since. -/
theorem Requires.active {transactions : List Transaction} {startDate endDate day : Date} {symbols : List String}
    (requires : Requires transactions startDate endDate symbols) (after : startDate ≤ day) (before : day ≤ endDate)
    {account : Account} {flow : ℚ} (run : accountOn transactions day = .ok (account, flow)) {symbol : String}
    (held : account.positions.getD symbol 0 ≠ 0) : symbol ∈ symbols := by
  rw [requires.mem]
  by_contra neither
  obtain ⟨closed, untraded⟩ := not_or.mp neither
  refine held ?_
  calc account.positions.getD symbol 0
      = total (Transaction.signedQuantity symbol) (ledgerSorted (transactions.filter fun t => t.utcDate ≤ day)) :=
        (replay_replayed run).quantity symbol
    _ = total (Transaction.signedQuantity symbol) (transactions.filter fun t => t.utcDate ≤ day) :=
        RunningSum.total_perm _ (StableSort.sortOn_perm _ _)
    _ = total (Transaction.signedQuantity symbol) (transactions.filter fun t => t.utcDate < startDate) := by
        refine total_signedQuantity_untraded (fun date early => early.le.trans after) ?_
        intro t member late reached own
        exact untraded ⟨t, member, late, reached.trans before, own⟩
    _ = 0 := not_not.mp closed

/-- What a range requires, a wider one requires too. -/
theorem Requires.widen {transactions : List Transaction} {startDate endDate startDate' endDate' : Date}
    {symbols symbols' : List String} (requires : Requires transactions startDate endDate symbols)
    (wider : Requires transactions startDate' endDate' symbols') (starts : startDate' ≤ startDate)
    (ends : endDate ≤ endDate') {symbol : String} (required : symbol ∈ symbols) : symbol ∈ symbols' := by
  rw [requires.mem] at required
  rw [wider.mem]
  rcases required with held | ⟨t, member, after, before, own⟩
  · by_contra neither
    obtain ⟨closed, untraded⟩ := not_or.mp neither
    refine held ?_
    calc total (Transaction.signedQuantity symbol) (transactions.filter fun t => t.utcDate < startDate)
        = total (Transaction.signedQuantity symbol) (transactions.filter fun t => t.utcDate < startDate') := by
          refine total_signedQuantity_untraded (fun date early => early.trans_le starts) ?_
          intro t member late before own
          exact untraded ⟨t, member, late, before.le.trans (requires.range.trans ends), own⟩
      _ = 0 := not_not.mp closed
  · exact .inr ⟨t, member, starts.trans after, before.trans ends, own⟩

end LedgerLens

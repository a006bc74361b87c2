import LedgerLens.FullPrecision

namespace LedgerLens
open Decimal (Context)
open RunningSum (total StaysNonneg lowest)

/-- The part of the ledger before the place of a transaction. -/
def ledgerBefore (ledger : List Transaction) (t : Transaction) : List Transaction :=
  (ledgerSorted ledger).filter fun u => u.ledgerKey < t.ledgerKey

/-- The part of the ledger after the place of a transaction. -/
def ledgerAfter (ledger : List Transaction) (t : Transaction) : List Transaction :=
  (ledgerSorted ledger).filter fun u => t.ledgerKey < u.ledgerKey

/-- The least of the balances of a symbol just before the place of a transaction and after every later
trade of the symbol. -/
def leastBalance (ledger : List Transaction) (t : Transaction) (symbol : String) : ℚ :=
  lowest (Transaction.signedQuantity symbol) (total (Transaction.signedQuantity symbol) (ledgerBefore ledger t))
    ((ledgerAfter ledger t).filter fun u => u.symbol = some symbol)

/-- The transaction is no SELL, or sells no more than the least balance from its place on. -/
def Affordable (ledger : List Transaction) (t : Transaction) : Prop :=
  t.transactionType = .buy ∨ t.transactionType = .deposit ∨ t.transactionType = .withdrawal ∨
    t.transactionType = .sell ∧ ∃ symbol quantity, t.symbol = some symbol ∧ t.quantity = some quantity ∧
      quantity.value ≤ leastBalance ledger t symbol

theorem Transaction.ledgerKey_ne {t u : Transaction} (other : u.id ≠ t.id) : u.ledgerKey ≠ t.ledgerKey := by
  intro same
  have keys := toLex_inj.mp same
  exact other (congrArg Prod.snd (toLex_inj.mp (congrArg Prod.snd keys)))

/-- A transaction with an id of its own is replayed between what is before and what is after it. -/
theorem ledgerSorted_insert {earlier later : List Transaction} {t : Transaction}
    (fresh : ∀ u ∈ earlier ++ later, u.id ≠ t.id) :
    ledgerSorted (earlier ++ t :: later) =
      ledgerBefore (earlier ++ later) t ++ t :: ledgerAfter (earlier ++ later) t :=
  StableSort.sortOn_insert fun u member => Transaction.ledgerKey_ne (fresh u member)

theorem ledgerSorted_eq_before_append_after {ledger : List Transaction} {t : Transaction}
    (fresh : ∀ u ∈ ledger, u.id ≠ t.id) :
    ledgerSorted ledger = ledgerBefore ledger t ++ ledgerAfter ledger t := by
  have split := StableSort.sortOn_split (p := fun u : Transaction => u.ledgerKey < t.ledgerKey)
    (fun _ _ order below => order.trans_lt below) ledger
  rw [← StableSort.filter_sortOn, ← StableSort.filter_sortOn] at split
  refine split.trans (congrArg _ (List.filter_congr fun u member => decide_eq_decide.mpr ?_))
  have other := Transaction.ledgerKey_ne (fresh u (StableSort.mem_sortOn.mp member))
  exact ⟨fun above => lt_of_le_of_ne (not_lt.mp above) other.symm, fun above => not_lt.mpr above.le⟩

/-- The running quantities once a transaction is inserted: those before it are as they were, those
after it are shifted by what it adds. -/
theorem staysNonneg_insert {amount : Transaction → ℚ} {before after : List Transaction} {t : Transaction}
    (accepted : StaysNonneg amount 0 (before ++ after)) :
    StaysNonneg amount 0 (before ++ t :: after) ↔ StaysNonneg amount (total amount before + amount t) after := by
  obtain ⟨early, late⟩ := RunningSum.staysNonneg_append.mp accepted
  rw [RunningSum.staysNonneg_append, RunningSum.staysNonneg_cons, zero_add]
  exact ⟨fun inserted => inserted.2.2, fun shifted => ⟨early, by simpa using early.finish, shifted⟩⟩

section Acceptance
variable [UnicodeDatabase]

theorem Transaction.Valid.signedQuantity_nonneg {t : Transaction} (valid : t.Valid)
    (notSell : t.transactionType ≠ .sell)
    (symbol : String) : 0 ≤ t.signedQuantity symbol := by
  by_cases trade : t.transactionType.isTrade
  · obtain ⟨traded, quantity, unitPrice, payload⟩ := valid.trade trade
    cases kind : t.transactionType with
    | buy =>
      simp only [signedQuantity, kind, payload.quantity_eq, Option.map_some, Option.getD_some]
      split
      · exact payload.quantity_pos.le
      · exact le_rfl
    | sell => exact absurd kind notSell
    | deposit | withdrawal => rw [kind] at trade; cases trade
  · exact (valid.signedQuantity_of_transfer trade symbol).ge

/-- What an inserted transaction needs of the balances from its place on. -/
theorem affordable_iff {ledger : List Transaction} {t : Transaction} (valid : t.Valid)
    (accepted : ∀ symbol,
      StaysNonneg (Transaction.signedQuantity symbol) 0 (ledgerBefore ledger t ++ ledgerAfter ledger t)) :
    Affordable ledger t ↔ ∀ symbol, StaysNonneg (Transaction.signedQuantity symbol)
      (total (Transaction.signedQuantity symbol) (ledgerBefore ledger t) + t.signedQuantity symbol)
      (ledgerAfter ledger t) := by
  have later (symbol : String) : StaysNonneg (Transaction.signedQuantity symbol)
      (total (Transaction.signedQuantity symbol) (ledgerBefore ledger t)) (ledgerAfter ledger t) := by
    simpa using (RunningSum.staysNonneg_append.mp (accepted symbol)).2
  by_cases sells : t.transactionType = .sell
  · obtain ⟨traded, quantity, unitPrice, payload⟩ := valid.trade (by rw [sells]; rfl)
    have own : t.signedQuantity traded = -quantity.value := by
      simp [Transaction.signedQuantity, payload.symbol_eq, sells, payload.quantity_eq]
    have tradedOnly : quantity.value ≤ leastBalance ledger t traded ↔ StaysNonneg (Transaction.signedQuantity traded)
        (total (Transaction.signedQuantity traded) (ledgerBefore ledger t) + t.signedQuantity traded)
        (ledgerAfter ledger t) := by
      rw [leastBalance, RunningSum.le_lowest_iff, own, ← sub_eq_add_neg]
      exact RunningSum.staysNonneg_filter fun u _ other => if_neg (by simpa using other)
    constructor
    · intro affordable symbol
      have least : quantity.value ≤ leastBalance ledger t traded := by
        rcases affordable with buy | deposit | withdrawal | ⟨_, symbol, sold, sameSymbol, sameQuantity, least⟩
        · cases sells.symm.trans buy
        · cases sells.symm.trans deposit
        · cases sells.symm.trans withdrawal
        · cases payload.symbol_eq.symm.trans sameSymbol
          cases payload.quantity_eq.symm.trans sameQuantity
          exact least
      by_cases same : symbol = traded
      · subst same
        exact tradedOnly.mp least
      · have untraded : t.signedQuantity symbol = 0 := if_neg (by simpa [payload.symbol_eq] using Ne.symm same)
        rw [untraded, add_zero]
        exact later symbol
    · intro shifted
      exact .inr (.inr (.inr ⟨sells, traded, quantity, payload.symbol_eq, payload.quantity_eq,
        tradedOnly.mpr (shifted traded)⟩))
  · have kind : t.transactionType = .buy ∨ t.transactionType = .deposit ∨ t.transactionType = .withdrawal := by
      cases kind : t.transactionType <;> simp_all
    have added (symbol : String) := (later symbol).mono
      (le_add_of_nonneg_right (valid.signedQuantity_nonneg sells symbol))
    simp only [added, implies_true, iff_true]
    exact kind.elim .inl fun rest => .inr (rest.elim .inl fun withdrawal => .inr (.inl withdrawal))

/-- Inserting a transaction into an accepted ledger. -/
theorem acceptedLedger_insert_iff {earlier later : List Transaction} {t : Transaction}
    (accepted : AcceptedLedger (earlier ++ later)) (valid : t.Valid) (fresh : ∀ u ∈ earlier ++ later, u.id ≠ t.id) :
    AcceptedLedger (earlier ++ t :: later) ↔
      t.occurredAt.astimezoneUtc.isSome ∧ Affordable (earlier ++ later) t := by
  have nonneg := accepted.nonneg
  rw [ledgerSorted_eq_before_append_after fresh] at nonneg
  rw [affordable_iff valid nonneg]
  have running : (∀ symbol, StaysNonneg (Transaction.signedQuantity symbol) 0 (ledgerSorted (earlier ++ t :: later))) ↔
      ∀ symbol, StaysNonneg (Transaction.signedQuantity symbol)
        (total (Transaction.signedQuantity symbol) (ledgerBefore (earlier ++ later) t) + t.signedQuantity symbol)
        (ledgerAfter (earlier ++ later) t) := by
    rw [ledgerSorted_insert fresh]
    exact forall_congr' fun symbol => staysNonneg_insert (nonneg symbol)
  have everywhere {P : Transaction → Prop} (held : ∀ u ∈ earlier ++ later, P u) (own : P t) :
      ∀ u ∈ earlier ++ t :: later, P u := by
    obtain ⟨left, right⟩ := List.forall_mem_append.mp held
    exact List.forall_mem_append.mpr ⟨left, List.forall_mem_cons.mpr ⟨own, right⟩⟩
  constructor
  · intro inserted
    exact ⟨inserted.convertible t (by simp), running.mp inserted.nonneg⟩
  · rintro ⟨convertible, shifted⟩
    exact ⟨everywhere accepted.valid valid, everywhere accepted.convertible convertible, running.mpr shifted⟩

/-- A valid transaction put anywhere into an accepted ledger leaves it accepted exactly when its time has
a UTC form and it is affordable; so the rule without the time is met unless the time is the obstacle. -/
theorem backdated_acceptance {earlier later : List Transaction} {positions : List Position}
    (accepted : derivePositions .exact (earlier ++ later) = .ok positions) {t : Transaction} (valid : t.Valid)
    (fresh : ∀ u ∈ earlier ++ later, u.id ≠ t.id) :
    ((∃ held, derivePositions .exact (earlier ++ t :: later) = .ok held) ↔
      t.occurredAt.astimezoneUtc.isSome ∧ Affordable (earlier ++ later) t) ∧
    (((∃ held, derivePositions .exact (earlier ++ t :: later) = .ok held) ↔ Affordable (earlier ++ later) t) ↔
      t.occurredAt.astimezoneUtc.isSome ∨ ¬ Affordable (earlier ++ later) t) := by
  have derived : (∃ held, derivePositions .exact (earlier ++ t :: later) = .ok held) ↔
      t.occurredAt.astimezoneUtc.isSome ∧ Affordable (earlier ++ later) t := by
    rw [← acceptedLedger_insert_iff (derivePositions_eq_ok.mp accepted).1 valid fresh]
    simp only [derivePositions_eq_ok, exists_and_left, exists_eq, and_true]
  refine ⟨derived, ?_⟩
  rw [derived, and_iff_right_iff_imp, imp_iff_or_not]

end Acceptance

section Samples

attribute [local instance] Text.asciiDatabase

/-- A purchase an hour before the first UTC day there is. -/
def earliestBuy : Transaction where
  id := ⟨1⟩
  portfolioId := ⟨2⟩
  externalId := "first"
  transactionType := .buy
  occurredAt := .earliest
  symbol := some "A"
  quantity := some (.finite false 1 0)
  unitPrice := some (.finite false 1 0)

/-- A valid BUY added to an empty ledger makes the derivation raise. -/
theorem earliest_buy_overflows : (∃ positions, derivePositions .exact [] = .ok positions) ∧ earliestBuy.Valid ∧
    Affordable [] earliestBuy ∧ derivePositions .exact [earliestBuy] = .error .overflowError := by
  refine ⟨⟨[], rfl⟩, validateTransaction_eq_ok.mp (by decide +kernel), .inl rfl, by decide +kernel⟩

/-- Selling between a purchase and a later sale no more than that sale leaves. -/
theorem sample_backdated_sale : ∃ held,
    derivePositions .exact [unitTrade .buy 0 20, unitTrade .sell 1 15, unitTrade .sell 2 5] = .ok held := by
  have accepted : derivePositions .exact ([unitTrade .buy 0 20] ++ [unitTrade .sell 2 5]) =
      .ok [⟨"A", 15 / 10 ^ 12⟩] := by decide +kernel
  have valid : (unitTrade .sell 1 15).Valid := validateTransaction_eq_ok.mp (by decide +kernel)
  have fresh : ∀ u ∈ [unitTrade .buy 0 20] ++ [unitTrade .sell 2 5], u.id ≠ (unitTrade .sell 1 15).id := by
    decide +kernel
  refine (backdated_acceptance accepted valid fresh).1.mpr ⟨by decide +kernel, .inr (.inr (.inr ⟨rfl, ?_⟩))⟩
  exact ⟨"A", .finite false 15 (-12), rfl, rfl, by decide +kernel⟩

end Samples
end LedgerLens

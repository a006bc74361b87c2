import LedgerLens.LedgerOrder
import LedgerLens.Library.RunningSum

namespace LedgerLens
open Decimal (Context)
open RunningSum (total StaysNonneg)

/-- The quantity a transaction adds to the position in a symbol. -/
def Transaction.signedQuantity (symbol : String) (t : Transaction) : ℚ :=
  if t.symbol = some symbol then
    match t.transactionType with
    | .buy => (t.quantity.map Decimal.value).getD 0
    | .sell => -(t.quantity.map Decimal.value).getD 0
    | .deposit | .withdrawal => 0
  else 0

/-- The positions after a transaction, without the check of a SELL. -/
def Transaction.adjust (positions : Dict String ℚ) (t : Transaction) : Dict String ℚ :=
  if t.transactionType.isTrade then
    match t.symbol with
    | some symbol => positions.set symbol (positions.getD symbol 0 + t.signedQuantity symbol)
    | none => positions
  else positions

def PositionsNonneg (positions : Dict String ℚ) : Prop := ∀ symbol, 0 ≤ positions.getD symbol 0

theorem positionsNonneg_empty : PositionsNonneg Dict.empty := fun _ => le_rfl

variable [UnicodeDatabase]

theorem Transaction.Valid.signedQuantity_of_transfer {t : Transaction} (valid : t.Valid)
    (transfer : ¬ t.transactionType.isTrade) (symbol : String) : t.signedQuantity symbol = 0 := by
  obtain ⟨cashAmount, payload⟩ := valid.transfer transfer
  simp [signedQuantity, payload.symbol_eq]

theorem Transaction.Valid.adjust_getD {t : Transaction} (valid : t.Valid) (positions : Dict String ℚ)
    (symbol : String) :
    (t.adjust positions).getD symbol 0 = positions.getD symbol 0 + t.signedQuantity symbol := by
  by_cases trade : t.transactionType.isTrade
  · obtain ⟨traded, quantity, unitPrice, payload⟩ := valid.trade trade
    simp only [adjust, trade, if_true, payload.symbol_eq, Dict.getD_set]
    split
    · next same => rw [same]
    · next other => simp [signedQuantity, payload.symbol_eq, other]
  · simp [adjust, trade, valid.signedQuantity_of_transfer trade]

/-- A valid transaction goes through exactly when no position would turn negative. -/
theorem Transaction.Valid.changePosition_eq_ok {t : Transaction} (valid : t.Valid) {exceeds : String → Error}
    {positions next : Dict String ℚ} (nonneg : PositionsNonneg positions) :
    changePosition .exact exceeds positions t = .ok next ↔
      PositionsNonneg (t.adjust positions) ∧ next = t.adjust positions := by
  have after := valid.adjust_getD positions
  by_cases trade : t.transactionType.isTrade
  · obtain ⟨traded, quantity, unitPrice, payload⟩ := valid.trade trade
    have others : ∀ symbol, symbol ≠ traded → (t.adjust positions).getD symbol 0 = positions.getD symbol 0 := by
      intro symbol other
      rw [after, signedQuantity, payload.symbol_eq, if_neg (by simpa using Ne.symm other), add_zero]
    have keeps : PositionsNonneg (t.adjust positions) ↔ 0 ≤ (t.adjust positions).getD traded 0 := by
      refine ⟨fun all => all traded, fun own symbol => ?_⟩
      by_cases same : symbol = traded
      · rw [same]; exact own
      · rw [others symbol same]; exact nonneg symbol
    rw [keeps, after traded]
    cases kind : t.transactionType with
    | buy =>
      have signed : t.signedQuantity traded = quantity.value := by
        simp [signedQuantity, payload.symbol_eq, kind, payload.quantity_eq]
      have positive := add_nonneg (nonneg traded) payload.quantity_pos.le
      simp only [changePosition, kind, payload.symbol_eq, payload.quantity_eq, adjust, signed,
        TransactionType.isTrade, positive]
      simp [eq_comm]
    | sell =>
      have signed : t.signedQuantity traded = -quantity.value := by
        simp [signedQuantity, payload.symbol_eq, kind, payload.quantity_eq]
      simp only [changePosition, kind, payload.symbol_eq, payload.quantity_eq, adjust, signed,
        TransactionType.isTrade, Context.exact_sub, ← sub_eq_add_neg]
      by_cases exceeded : positions.getD traded 0 - quantity.value < 0
      · simp only [exceeded, not_le.mpr exceeded, false_and, iff_false]
        simp
      · simp [exceeded, not_lt.mp exceeded, eq_comm]
    | deposit | withdrawal => rw [kind] at trade; cases trade
  · have skipped : changePosition .exact exceeds positions t = .ok positions := by
      cases kind : t.transactionType <;> simp_all [changePosition, TransactionType.isTrade]
    have unchanged : t.adjust positions = positions := by simp [adjust, trade]
    rw [skipped, unchanged]
    simp [nonneg, eq_comm]

theorem adjust_foldl_getD {transactions : List Transaction} (valid : ∀ t ∈ transactions, t.Valid)
    (positions : Dict String ℚ) (symbol : String) :
    (transactions.foldl Transaction.adjust positions).getD symbol 0 =
      positions.getD symbol 0 + total (Transaction.signedQuantity symbol) transactions := by
  induction transactions generalizing positions with
  | nil => simp
  | cons t rest ih =>
    obtain ⟨head, tail⟩ := List.forall_mem_cons.mp valid
    rw [List.foldl_cons, ih tail, head.adjust_getD, RunningSum.total_cons, add_assoc]

/-- A replay of valid transactions succeeds exactly when no running position turns negative, and then
each position is the sum of the signed quantities. -/
theorem changePosition_foldlM_eq_ok {transactions : List Transaction} (valid : ∀ t ∈ transactions, t.Valid)
    {exceeds : String → Error} {positions final : Dict String ℚ} (nonneg : PositionsNonneg positions) :
    transactions.foldlM (changePosition .exact exceeds) positions = .ok final ↔
      (∀ symbol, StaysNonneg (Transaction.signedQuantity symbol) (positions.getD symbol 0) transactions) ∧
        final = transactions.foldl Transaction.adjust positions := by
  induction transactions generalizing positions with
  | nil =>
    simp only [List.foldlM_nil, Checked.pure_eq_ok, RunningSum.staysNonneg_nil, List.foldl_nil]
    exact ⟨fun same => ⟨nonneg, same.symm⟩, fun same => same.2.symm⟩
  | cons t rest ih =>
    obtain ⟨head, tail⟩ := List.forall_mem_cons.mp valid
    simp only [Checked.foldlM_cons_eq_ok, head.changePosition_eq_ok nonneg, RunningSum.staysNonneg_cons,
      List.foldl_cons, ← head.adjust_getD]
    constructor
    · rintro ⟨_, ⟨kept, rfl⟩, run⟩
      obtain ⟨later, result⟩ := (ih tail kept).mp run
      exact ⟨fun symbol => ⟨nonneg symbol, later symbol⟩, result⟩
    · rintro ⟨running, result⟩
      have kept : PositionsNonneg (t.adjust positions) := fun symbol => (running symbol).2.start
      exact ⟨_, ⟨kept, rfl⟩, (ih tail kept).mpr ⟨fun symbol => (running symbol).2, result⟩⟩

/-- The positions listed by a replay, in symbol order, without the closed ones. -/
def openPositions (quantities : Dict String ℚ) : List Position :=
  ((StableSort.sortOn Prod.fst quantities.entries).filter fun entry => entry.2 ≠ 0).map
    fun entry => ⟨entry.1, entry.2⟩

/-- A ledger the replay accepts: every transaction is valid and representable in UTC, and no running
position is ever negative in ledger order. -/
structure AcceptedLedger (transactions : List Transaction) : Prop where
  valid : ∀ t ∈ transactions, t.Valid
  convertible : ∀ t ∈ transactions, t.occurredAt.astimezoneUtc.isSome
  nonneg : ∀ symbol, StaysNonneg (Transaction.signedQuantity symbol) 0 (ledgerSorted transactions)

/-- What `derive_positions` goes through, whatever the arithmetic. -/
theorem derivePositions_eq_ok_iff_replayed {ctx : Context} {transactions : List Transaction}
    {positions : List Position} :
    derivePositions ctx transactions = .ok positions ↔
      (∀ t ∈ transactions, t.Valid) ∧ (∀ t ∈ transactions, t.occurredAt.astimezoneUtc.isSome) ∧
        ∃ quantities,
          (ledgerSorted transactions).foldlM (changePosition ctx .invalidTransaction) .empty = .ok quantities ∧
          positions = openPositions quantities := by
  constructor
  · intro accepted
    obtain ⟨_, checked, accepted⟩ := Checked.bind_eq_ok.mp accepted
    obtain ⟨ordered, sorted, accepted⟩ := Checked.bind_eq_ok.mp accepted
    obtain ⟨quantities, replayed, result⟩ := Checked.bind_eq_ok.mp accepted
    have valid : ∀ t ∈ transactions, t.Valid := fun t member =>
      validateTransaction_eq_ok.mp (Checked.forM_eq_ok.mp checked t member)
    obtain ⟨convertible, rfl⟩ := sortOnM_ledgerOrder_eq_ok.mp sorted
    exact ⟨valid, convertible, quantities, replayed, (Checked.pure_eq_ok.mp result).symm⟩
  · rintro ⟨valid, convertible, quantities, replayed, rfl⟩
    refine Checked.bind_eq_ok.mpr ⟨⟨⟩, Checked.forM_eq_ok.mpr fun t member =>
      validateTransaction_eq_ok.mpr (valid t member), ?_⟩
    refine Checked.bind_eq_ok.mpr ⟨_, sortOnM_ledgerOrder_eq_ok.mpr ⟨convertible, rfl⟩, ?_⟩
    exact Checked.bind_eq_ok.mpr ⟨_, replayed, rfl⟩

theorem ledgerSorted_valid {transactions : List Transaction} (valid : ∀ t ∈ transactions, t.Valid) :
    ∀ t ∈ ledgerSorted transactions, t.Valid :=
  fun t member => valid t (StableSort.mem_sortOn.mp member)

theorem derivePositions_eq_ok {transactions : List Transaction} {positions : List Position} :
    derivePositions .exact transactions = .ok positions ↔
      AcceptedLedger transactions ∧
        positions = openPositions ((ledgerSorted transactions).foldl Transaction.adjust Dict.empty) := by
  rw [derivePositions_eq_ok_iff_replayed]
  constructor
  · rintro ⟨valid, convertible, quantities, replayed, rfl⟩
    obtain ⟨nonneg, rfl⟩ := (changePosition_foldlM_eq_ok (ledgerSorted_valid valid) positionsNonneg_empty).mp replayed
    exact ⟨⟨valid, convertible, nonneg⟩, rfl⟩
  · rintro ⟨⟨valid, convertible, nonneg⟩, rfl⟩
    exact ⟨valid, convertible, _, (changePosition_foldlM_eq_ok (ledgerSorted_valid valid)
      positionsNonneg_empty).mpr ⟨nonneg, rfl⟩, rfl⟩

end LedgerLens

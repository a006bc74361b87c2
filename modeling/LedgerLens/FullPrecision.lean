import LedgerLens.RunningPositions
import LedgerLens.TransactionBounds

namespace LedgerLens
open Decimal (Context)
open RunningSum (total StaysNonneg)

/-- The quantity that listed positions give a symbol; an unlisted symbol has none. -/
def quantityOf (positions : List Position) (symbol : String) : ℚ :=
  ((positions.find? fun position => position.symbol = symbol).map Position.quantity).getD 0

theorem mem_openPositions {quantities : Dict String ℚ} {position : Position} :
    position ∈ openPositions quantities ↔
      quantities.get? position.symbol = some position.quantity ∧ position.quantity ≠ 0 := by
  obtain ⟨symbol, quantity⟩ := position
  simp only [openPositions, List.mem_map, List.mem_filter, StableSort.mem_sortOn, decide_eq_true_eq,
    Dict.get?_eq_some]
  constructor
  · rintro ⟨⟨_, _⟩, ⟨member, isOpen⟩, same⟩
    cases same
    exact ⟨member, isOpen⟩
  · rintro ⟨member, isOpen⟩
    exact ⟨(symbol, quantity), ⟨member, isOpen⟩, rfl⟩

/-- Listing the open positions keeps every quantity. -/
theorem quantityOf_openPositions (quantities : Dict String ℚ) (symbol : String) :
    quantityOf (openPositions quantities) symbol = quantities.getD symbol 0 := by
  rw [quantityOf, Dict.getD]
  cases found : (openPositions quantities).find? fun position => position.symbol = symbol with
  | some position =>
    have same : position.symbol = symbol := by simpa using List.find?_some found
    obtain ⟨held, _⟩ := mem_openPositions.mp (List.mem_of_find?_eq_some found)
    rw [← same, held]
    rfl
  | none =>
    cases held : quantities.get? symbol with
    | none => rfl
    | some quantity =>
      by_contra isOpen
      have listed : (⟨symbol, quantity⟩ : Position) ∈ openPositions quantities :=
        mem_openPositions.mpr ⟨held, fun zero => isOpen zero.symm⟩
      simpa using List.find?_eq_none.mp found _ listed

/-- Every quantity in a dictionary is one the context can store. -/
def QuantitiesRepresentable (positions : Dict String ℚ) : Prop :=
  ∀ symbol, Representable (positions.getD symbol 0)

theorem quantitiesRepresentable_empty : QuantitiesRepresentable Dict.empty := fun _ => representable_zero

/-- A position change stores a rounded quantity and no other. -/
theorem changePosition_representable {exceeds : String → Error} {positions next : Dict String ℚ} {t : Transaction}
    (stored : QuantitiesRepresentable positions)
    (changed : changePosition defaultContext exceeds positions t = .ok next) : QuantitiesRepresentable next := by
  have replaced (symbol : String) {quantity : ℚ} (fits : Representable quantity) :
      QuantitiesRepresentable (positions.set symbol quantity) := by
    intro other
    rw [Dict.getD_set]
    split
    · exact fits
    · exact stored other
  unfold changePosition at changed
  split at changed
  · cases changed
    exact stored
  · split at changed
    · next symbol quantity _ _ =>
      simp only at changed
      split at changed
      · cases changed
        exact replaced symbol (defaultContext_round_representable _)
      · obtain ⟨_, changed⟩ := Checked.guard_eq_ok.mp changed
        cases changed
        exact replaced symbol (defaultContext_round_representable _)
    · cases changed

theorem changePosition_foldlM_representable {exceeds : String → Error} {transactions : List Transaction}
    {final : Dict String ℚ}
    (run : transactions.foldlM (changePosition defaultContext exceeds) .empty = .ok final) :
    QuantitiesRepresentable final :=
  Checked.foldlM_prefix_invariant (fun _ positions => QuantitiesRepresentable positions)
    quantitiesRepresentable_empty run fun _ _ _ _ _ _ stored changed => changePosition_representable stored changed

theorem ledgerSorted_take (transactions : List Transaction) (k : Nat) :
    ledgerSorted ((ledgerSorted transactions).take k) = (ledgerSorted transactions).take k :=
  StableSort.sortOn_of_sorted (StableSort.sortOn_sorted Transaction.ledgerKey transactions).take

/-- Every exact running quantity of a ledger is one the context can store. -/
def RunningQuantitiesFit (transactions : List Transaction) : Prop :=
  ∀ symbol k, Representable (total (Transaction.signedQuantity symbol) ((ledgerSorted transactions).take k))

theorem RunningQuantitiesFit.take {transactions : List Transaction} (fits : RunningQuantitiesFit transactions)
    (k : Nat) : RunningQuantitiesFit ((ledgerSorted transactions).take k) := by
  intro symbol n
  rw [ledgerSorted_take, List.take_take]
  exact fits symbol (min n k)

/-- No exact running quantity is negative, and the positions are the exact ones. -/
structure DerivedExactly (transactions : List Transaction) (positions : List Position) : Prop where
  nonneg : ∀ symbol k, 0 ≤ total (Transaction.signedQuantity symbol) ((ledgerSorted transactions).take k)
  quantity : ∀ symbol, quantityOf positions symbol = total (Transaction.signedQuantity symbol) transactions

section Exactness
variable [UnicodeDatabase]

/-- Where the new quantity needs no rounding, the context plays no part. -/
theorem Transaction.Valid.changePosition_eq_exact {t : Transaction} (valid : t.Valid) (exceeds : String → Error)
    (positions : Dict String ℚ)
    (fits : ∀ symbol, Representable (positions.getD symbol 0 + t.signedQuantity symbol)) :
    changePosition defaultContext exceeds positions t = changePosition .exact exceeds positions t := by
  cases kind : t.transactionType with
  | deposit | withdrawal => simp [changePosition, kind]
  | buy =>
    obtain ⟨symbol, quantity, unitPrice, payload⟩ := valid.trade (by rw [kind]; rfl)
    have stored := defaultContext_round_eq_self_iff.mpr (fits symbol)
    simp only [signedQuantity, payload.symbol_eq, if_true, kind, payload.quantity_eq, Option.map_some,
      Option.getD_some] at stored
    simp [changePosition, kind, payload.symbol_eq, payload.quantity_eq, Context.add, stored, Context.exact]
  | sell =>
    obtain ⟨symbol, quantity, unitPrice, payload⟩ := valid.trade (by rw [kind]; rfl)
    have stored := defaultContext_round_eq_self_iff.mpr (fits symbol)
    simp only [signedQuantity, payload.symbol_eq, if_true, kind, payload.quantity_eq, Option.map_some,
      Option.getD_some, ← sub_eq_add_neg] at stored
    simp [changePosition, kind, payload.symbol_eq, payload.quantity_eq, Context.sub, stored, Context.exact]

theorem changePosition_foldlM_eq_exact (exceeds : String → Error) {transactions : List Transaction}
    (valid : ∀ t ∈ transactions, t.Valid) {positions : Dict String ℚ} (nonneg : PositionsNonneg positions)
    (fits : ∀ symbol k, Representable
      (positions.getD symbol 0 + total (Transaction.signedQuantity symbol) (transactions.take k))) :
    transactions.foldlM (changePosition defaultContext exceeds) positions =
      transactions.foldlM (changePosition .exact exceeds) positions := by
  induction transactions generalizing positions with
  | nil => rfl
  | cons t rest ih =>
    obtain ⟨head, tail⟩ := List.forall_mem_cons.mp valid
    have first := head.changePosition_eq_exact exceeds positions fun symbol => by simpa using fits symbol 1
    rw [List.foldlM_cons, List.foldlM_cons, first]
    cases changed : changePosition .exact exceeds positions t with
    | error raised => rfl
    | ok next =>
      obtain ⟨kept, rfl⟩ := (head.changePosition_eq_ok nonneg).mp changed
      refine ih tail kept fun symbol k => ?_
      rw [head.adjust_getD, add_assoc]
      simpa using fits symbol (k + 1)

theorem derivePositions_eq_exact {transactions : List Transaction} (valid : ∀ t ∈ transactions, t.Valid)
    (fits : RunningQuantitiesFit transactions) {positions : List Position} :
    derivePositions defaultContext transactions = .ok positions ↔
      derivePositions .exact transactions = .ok positions := by
  have replayed := changePosition_foldlM_eq_exact .invalidTransaction (ledgerSorted_valid valid)
    positionsNonneg_empty (by simpa [RunningQuantitiesFit] using fits)
  rw [derivePositions_eq_ok_iff_replayed, derivePositions_eq_ok_iff_replayed, replayed]

theorem derivedExactly_of_exact {transactions : List Transaction} {positions : List Position}
    (derived : derivePositions .exact transactions = .ok positions) : DerivedExactly transactions positions := by
  obtain ⟨accepted, rfl⟩ := derivePositions_eq_ok.mp derived
  refine ⟨fun symbol k => by simpa using accepted.nonneg symbol k, fun symbol => ?_⟩
  rw [quantityOf_openPositions, adjust_foldl_getD (ledgerSorted_valid accepted.valid), Dict.getD_empty, zero_add]
  exact RunningSum.total_perm _ (StableSort.sortOn_perm _ _)

/-- What the default context derives, it can store. -/
theorem quantityOf_representable {transactions : List Transaction} {positions : List Position}
    (derived : derivePositions defaultContext transactions = .ok positions) (symbol : String) :
    Representable (quantityOf positions symbol) := by
  obtain ⟨_, _, quantities, replayed, rfl⟩ := derivePositions_eq_ok_iff_replayed.mp derived
  rw [quantityOf_openPositions]
  exact changePosition_foldlM_representable replayed symbol

/-- Every cut of an accepted ledger is accepted. -/
theorem derivePositions_take {ctx : Context} {transactions : List Transaction} {positions : List Position}
    (derived : derivePositions ctx transactions = .ok positions) (k : Nat) :
    ∃ held, derivePositions ctx ((ledgerSorted transactions).take k) = .ok held := by
  obtain ⟨valid, convertible, quantities, replayed, rfl⟩ := derivePositions_eq_ok_iff_replayed.mp derived
  have member {t : Transaction} (kept : t ∈ (ledgerSorted transactions).take k) : t ∈ transactions :=
    StableSort.mem_sortOn.mp (List.mem_of_mem_take kept)
  rw [← List.take_append_drop k (ledgerSorted transactions)] at replayed
  obtain ⟨middle, early, _⟩ := Checked.foldlM_append_eq_ok.mp replayed
  exact ⟨_, derivePositions_eq_ok_iff_replayed.mpr ⟨fun t kept => valid t (member kept),
    fun t kept => convertible t (member kept), middle, by rw [ledgerSorted_take]; exact early, rfl⟩⟩

/-- An accepted ledger is derived exactly, and never oversold, where every running quantity fits the
context; and where one does not fit, the ledger cut there is not derived exactly. -/
theorem derived_exactly_iff {transactions : List Transaction} {positions : List Position}
    (accepted : derivePositions defaultContext transactions = .ok positions) :
    (RunningQuantitiesFit transactions → DerivedExactly transactions positions) ∧
    ((∀ k, ∃ held, derivePositions defaultContext ((ledgerSorted transactions).take k) = .ok held ∧
      DerivedExactly ((ledgerSorted transactions).take k) held) ↔ RunningQuantitiesFit transactions) := by
  have valid := (derivePositions_eq_ok_iff_replayed.mp accepted).1
  refine ⟨fun fits => derivedExactly_of_exact ((derivePositions_eq_exact valid fits).mp accepted), ?_, ?_⟩
  · intro exact symbol k
    obtain ⟨held, derived, exactly⟩ := exact k
    rw [← exactly.quantity symbol]
    exact quantityOf_representable derived symbol
  · intro fits k
    obtain ⟨held, derived⟩ := derivePositions_take accepted k
    have kept := (derivePositions_eq_ok_iff_replayed.mp derived).1
    exact ⟨held, derived, derivedExactly_of_exact ((derivePositions_eq_exact kept (fits.take k)).mp derived)⟩

end Exactness

section Samples

attribute [local instance] Text.asciiDatabase

/-- A trade of so many units of 0.000000000001 share, at a price of one. -/
def unitTrade (transactionType : TransactionType) (day : Fin 8) (units : Nat) : Transaction where
  id := ⟨day⟩
  portfolioId := ⟨2⟩
  externalId := "trade"
  transactionType := transactionType
  occurredAt := .ofInstant ((738886 + day) * 86400000000) (by unfold DateTime.ceiling DateTime.microsPerDay; omega)
  symbol := some "A"
  quantity := some (.finite false units (-12))
  unitPrice := some (.finite false 1 0)

/-- Two purchases whose sum needs 29 digits, then sales of more than was bought. -/
def crossingLedger : List Transaction :=
  [unitTrade .buy 0 9999999999999999999999999999, unitTrade .buy 1 7,
    unitTrade .sell 2 9999999999999999999999999999, unitTrade .sell 3 11]

theorem unitTrade_withinBounds {transactionType : TransactionType} {day : Fin 8} {units : Nat}
    (fits : units < 10 ^ 28) :
    (unitTrade transactionType day units).WithinBounds where
  quantity quantity listed := Option.some.inj listed ▸ withinDigits_value 12 le_rfl (by simpa using fits)
  unitPrice unitPrice listed := Option.some.inj listed ▸ withinDigits_value 0 (by decide) (by decide)
  cashAmount cashAmount listed := nomatch listed
  fees := withinDigits_value 0 (by decide) (by decide)

/-- The second purchase is rounded up, so the sales that follow pass although they exceed it. -/
theorem crossing_oversold : ∃ positions, derivePositions defaultContext crossingLedger = .ok positions ∧
    (∀ t ∈ crossingLedger, t.WithinBounds) ∧ ¬ DerivedExactly crossingLedger positions := by
  refine ⟨[], by decide +kernel, ?_, fun exact => ?_⟩
  · simp only [crossingLedger, List.forall_mem_cons]
    exact ⟨unitTrade_withinBounds (by decide), unitTrade_withinBounds (by decide),
      unitTrade_withinBounds (by decide), unitTrade_withinBounds (by decide), by simp⟩
  · exact absurd (exact.nonneg "A" 4) (by decide +kernel)

/-- One share bought and sold again. -/
theorem sample_derived_exactly : ∃ positions,
    derivePositions defaultContext [unitTrade .buy 0 10, unitTrade .sell 1 10] = .ok positions ∧
    ((∀ k, ∃ held, derivePositions defaultContext ((ledgerSorted [unitTrade .buy 0 10, unitTrade .sell 1 10]).take k) =
      .ok held ∧ DerivedExactly ((ledgerSorted [unitTrade .buy 0 10, unitTrade .sell 1 10]).take k) held) ↔
      RunningQuantitiesFit [unitTrade .buy 0 10, unitTrade .sell 1 10]) := by
  have accepted : derivePositions defaultContext [unitTrade .buy 0 10, unitTrade .sell 1 10] = .ok [] := by
    decide +kernel
  exact ⟨[], accepted, (derived_exactly_iff accepted).2⟩

end Samples
end LedgerLens

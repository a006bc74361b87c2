import LedgerLens.Holdings

namespace LedgerLens

def TransactionType.isTrade : TransactionType → Bool
  | .buy | .sell => true
  | .deposit | .withdrawal => false

/-- What a validated DEPOSIT or WITHDRAWAL carries. -/
structure ValidTransfer (t : Transaction) (cashAmount : Decimal) : Prop where
  symbol_eq : t.symbol = none
  quantity_eq : t.quantity = none
  unitPrice_eq : t.unitPrice = none
  cashAmount_eq : t.cashAmount = some cashAmount
  cashAmount_finite : cashAmount.isFinite
  cashAmount_pos : 0 < cashAmount.value

theorem requirePositiveFinite_eq_ok {value : Option Decimal} {fieldName : String} :
    requirePositiveFinite value fieldName = .ok () ↔ ∃ v, value = some v ∧ v.isFinite ∧ 0 < v.value := by
  cases value with
  | none => simp [requirePositiveFinite]
  | some v =>
    simp only [requirePositiveFinite, Option.some.injEq, exists_eq_left']
    split
    · next bad => simp only [reduceCtorEq, false_iff, not_and, not_lt]; tauto
    · next good => simp only [not_or, not_not, not_le] at good; simpa using good

theorem requireNonNegativeFinite_eq_ok {value : Decimal} {fieldName : String} :
    requireNonNegativeFinite value fieldName = .ok () ↔ value.isFinite ∧ 0 ≤ value.value := by
  unfold requireNonNegativeFinite
  split
  · next bad => simp only [reduceCtorEq, false_iff, not_and, not_le]; tauto
  · next good => simp only [not_or, not_not, not_lt] at good; simpa using good

theorem validateTransfer_eq_ok {t : Transaction} :
    validateTransfer t = .ok () ↔ ∃ cashAmount, ValidTransfer t cashAmount := by
  constructor
  · intro accepted
    unfold validateTransfer at accepted
    obtain ⟨extra, accepted⟩ := Checked.guard_eq_ok.mp accepted
    obtain ⟨cashAmount, cashEq, finite, positive⟩ := requirePositiveFinite_eq_ok.mp accepted
    simp only [not_or, Option.not_isSome_iff_eq_none] at extra
    exact ⟨cashAmount, extra.1, extra.2.1, extra.2.2, cashEq, finite, positive⟩
  · rintro ⟨cashAmount, valid⟩
    have extra : ¬ (t.symbol.isSome ∨ t.quantity.isSome ∨ t.unitPrice.isSome) := by
      simp [valid.symbol_eq, valid.quantity_eq, valid.unitPrice_eq]
    rw [validateTransfer, if_neg extra]
    exact requirePositiveFinite_eq_ok.mpr
      ⟨cashAmount, valid.cashAmount_eq, valid.cashAmount_finite, valid.cashAmount_pos⟩

variable [UnicodeDatabase]

/-- What a validated BUY or SELL carries. -/
structure ValidTrade (t : Transaction) (symbol : String) (quantity unitPrice : Decimal) : Prop where
  symbol_eq : t.symbol = some symbol
  symbol_nonblank : Text.strip symbol ≠ ""
  symbol_upper : symbol = Text.upper (Text.strip symbol)
  quantity_eq : t.quantity = some quantity
  quantity_finite : quantity.isFinite
  quantity_pos : 0 < quantity.value
  unitPrice_eq : t.unitPrice = some unitPrice
  unitPrice_finite : unitPrice.isFinite
  unitPrice_pos : 0 < unitPrice.value
  cashAmount_eq : t.cashAmount = none

/-- The ledger rules as one statement about a transaction. -/
structure Transaction.Valid (t : Transaction) : Prop where
  externalId : Text.strip t.externalId ≠ ""
  occurredAt : t.occurredAt.isAware
  createdAt : ∀ createdAt ∈ t.createdAt, createdAt.isAware
  fees_finite : t.fees.isFinite
  fees_nonneg : 0 ≤ t.fees.value
  trade : t.transactionType.isTrade → ∃ symbol quantity unitPrice, ValidTrade t symbol quantity unitPrice
  transfer : ¬ t.transactionType.isTrade → ∃ cashAmount, ValidTransfer t cashAmount

theorem validateTrade_eq_ok {t : Transaction} :
    validateTrade t = .ok () ↔ ∃ symbol quantity unitPrice, ValidTrade t symbol quantity unitPrice := by
  constructor
  · intro accepted
    unfold validateTrade at accepted
    split at accepted
    · cases accepted
    · next symbol symbolEq =>
      obtain ⟨blank, accepted⟩ := Checked.guard_eq_ok.mp accepted
      obtain ⟨cased, accepted⟩ := Checked.guard_eq_ok.mp accepted
      obtain ⟨_, quantityOk, accepted⟩ := Checked.bind_eq_ok.mp accepted
      obtain ⟨_, priceOk, accepted⟩ := Checked.bind_eq_ok.mp accepted
      obtain ⟨quantity, quantityEq, quantityFinite, quantityPos⟩ := requirePositiveFinite_eq_ok.mp quantityOk
      obtain ⟨unitPrice, priceEq, priceFinite, pricePos⟩ := requirePositiveFinite_eq_ok.mp priceOk
      have cash := (Checked.guard_eq_ok.mp accepted).1
      exact ⟨symbol, quantity, unitPrice, symbolEq, blank, not_not.mp cased, quantityEq, quantityFinite,
        quantityPos, priceEq, priceFinite, pricePos, by simpa using cash⟩
  · rintro ⟨symbol, quantity, unitPrice, valid⟩
    have quantityOk := (@requirePositiveFinite_eq_ok _ "quantity").mpr
      ⟨quantity, valid.quantity_eq, valid.quantity_finite, valid.quantity_pos⟩
    have priceOk := (@requirePositiveFinite_eq_ok _ "unit_price").mpr
      ⟨unitPrice, valid.unitPrice_eq, valid.unitPrice_finite, valid.unitPrice_pos⟩
    have cash : ¬ t.cashAmount.isSome := by simp [valid.cashAmount_eq]
    simp only [validateTrade, valid.symbol_eq]
    rw [if_neg valid.symbol_nonblank, if_neg (not_not.mpr valid.symbol_upper), quantityOk, priceOk, if_neg cash]
    rfl

/-- `validate_transaction` accepts exactly the valid transactions. -/
theorem validateTransaction_eq_ok {t : Transaction} : validateTransaction t = .ok () ↔ t.Valid := by
  constructor
  · intro accepted
    unfold validateTransaction at accepted
    obtain ⟨blank, accepted⟩ := Checked.guard_eq_ok.mp accepted
    obtain ⟨naive, accepted⟩ := Checked.guard_eq_ok.mp accepted
    obtain ⟨created, accepted⟩ := Checked.guard_eq_ok.mp accepted
    obtain ⟨_, feesOk, accepted⟩ := Checked.bind_eq_ok.mp accepted
    obtain ⟨finite, nonneg⟩ := requireNonNegativeFinite_eq_ok.mp feesOk
    refine ⟨blank, not_not.mp naive, ?_, finite, nonneg, ?_, ?_⟩
    · intro createdAt member
      rw [Option.mem_def] at member
      simpa [member] using created
    · intro trade
      cases kind : t.transactionType with
      | buy | sell => rw [kind] at accepted; exact validateTrade_eq_ok.mp accepted
      | deposit | withdrawal => rw [kind] at trade; cases trade
    · intro transfer
      cases kind : t.transactionType with
      | buy | sell => rw [kind] at transfer; exact absurd rfl transfer
      | deposit | withdrawal => rw [kind] at accepted; exact validateTransfer_eq_ok.mp accepted
  · intro valid
    have created : ¬ (t.createdAt.any fun createdAt => ¬ createdAt.isAware) := by
      cases recorded : t.createdAt with
      | none => simp
      | some createdAt => simpa using valid.createdAt createdAt recorded
    have feesOk := (@requireNonNegativeFinite_eq_ok _ "fees").mpr
      ⟨valid.fees_finite, valid.fees_nonneg⟩
    rw [validateTransaction, if_neg valid.externalId, if_neg (not_not.mpr valid.occurredAt), if_neg created,
      feesOk]
    cases kind : t.transactionType with
    | buy | sell => exact validateTrade_eq_ok.mpr (valid.trade (by rw [kind]; rfl))
    | deposit | withdrawal => exact validateTransfer_eq_ok.mpr (valid.transfer (by rw [kind]; decide))

end LedgerLens

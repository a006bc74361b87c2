import LedgerLens.CsvImport
import LedgerLens.TransactionBounds
import LedgerLens.Payloads

namespace LedgerLens
open Decimal (IsQuantized)

/-- The numbers that a decimal field lets through. -/
structure DecimalField.Admits (field : DecimalField) (x : Decimal) : Prop where
  isFinite : x.isFinite
  nonneg : 0 ≤ x.value
  positive : field.zeroAllowed = false → 0 < x.value
  digits : WithinDigits field.maxDigits field.decimalPlaces x.value

/-- The validation library keeps to what a field is declared with. -/
structure FieldParsers.Enforces (parsers : FieldParsers) : Prop where
  string : ∀ maxLength text value, parsers.string maxLength text = .ok value →
    1 ≤ value.length ∧ value.length ≤ maxLength
  decimal : ∀ field text value, parsers.decimal field text = .ok value → field.Admits value

def quantityField : DecimalField := ⟨false, 28, 12⟩
def moneyField : DecimalField := ⟨false, 20, 8⟩
def feesField : DecimalField := ⟨true, 20, 8⟩

/-- The requests that `TransactionInput` accepts. -/
structure TransactionInput.Accepts (transaction : NewTransaction) : Prop where
  externalId : 1 ≤ transaction.externalId.length ∧ transaction.externalId.length ≤ 100
  occurredAt : transaction.occurredAt.isAware
  symbol : ∀ symbol ∈ transaction.symbol, 1 ≤ symbol.length ∧ symbol.length ≤ 32
  quantity : ∀ q ∈ transaction.quantity, quantityField.Admits q
  unitPrice : ∀ q ∈ transaction.unitPrice, moneyField.Admits q
  cashAmount : ∀ q ∈ transaction.cashAmount, moneyField.Admits q
  fees : feesField.Admits transaction.fees
  payload : TransactionInput.payloadMatchesTransactionType transaction = .ok ()

theorem DecimalField.Admits.of_value {field : DecimalField} {x y : Decimal} (admits : field.Admits x)
    (isFinite : y.isFinite) (same : x.value = y.value) : field.Admits y :=
  ⟨isFinite, same ▸ admits.nonneg, fun strict => same ▸ admits.positive strict, same ▸ admits.digits⟩

theorem SameNumber.admits {field : DecimalField} {x y : Option Decimal} (same : SameNumber x y)
    (admits : ∀ q ∈ x, field.Admits q) : ∀ q ∈ y, field.Admits q := by
  rintro q ⟨⟩
  obtain ⟨p, rfl, finite, value⟩ := same.symm.of_some
  exact (admits p rfl).of_value (same.symm.finite q rfl) value.symm

theorem SameNumber.isSome_eq {x y : Option Decimal} (same : SameNumber x y) : x.isSome = y.isSome := by
  cases x <;> cases y <;> first | rfl | exact same.elim

/-- What the validator of the whole model leaves: a trade without an amount of cash, or cash alone. -/
theorem payloadMatchesTransactionType_eq_ok {transaction : NewTransaction}
    (matched : TransactionInput.payloadMatchesTransactionType transaction = .ok ()) :
    (transaction.transactionType.isTrade → transaction.symbol.isSome ∧ transaction.quantity.isSome ∧
      transaction.unitPrice.isSome ∧ transaction.cashAmount.isSome = false) ∧
    (¬ transaction.transactionType.isTrade → transaction.symbol.isSome = false ∧ transaction.quantity.isSome = false ∧
      transaction.unitPrice.isSome = false ∧ transaction.cashAmount.isSome) := by
  unfold TransactionInput.payloadMatchesTransactionType at matched
  cases typed : transaction.transactionType <;> rw [typed] at matched <;>
    obtain ⟨missing, matched⟩ := Checked.guard_eq_ok.mp matched <;>
    obtain ⟨extra, _⟩ := Checked.guard_eq_ok.mp matched <;>
    simp_all [TransactionType.isTrade, Option.isSome_iff_ne_none]

section Fields

theorem field_eq_ok {α : Type} {payload : TransactionInput.Payload} {name : String} {default : Option α}
    {parse : Option String → Except String α} {value : α}
    (read : TransactionInput.field payload name default parse = .ok value) :
    default = some value ∨ ∃ text, parse text = .ok value := by
  unfold TransactionInput.field at read
  split at read
  · cases read
    exact .inl rfl
  · cases read
  · next _ _ text _ =>
    cases parsed : parse text with
    | error message => rw [parsed] at read; cases read
    | ok found =>
      rw [parsed] at read
      cases read
      exact .inr ⟨text, parsed⟩

theorem orNone_eq_ok {α : Type} {parse : Option String → Except String α} {text : Option String} {value : Option α}
    (read : orNone parse text = .ok value) : ∀ a ∈ value, parse text = .ok a := by
  unfold orNone at read
  split at read
  · cases read
    simp
  · obtain ⟨found, parsed, rfl⟩ := Checked.map_eq_ok.mp read
    rintro a ⟨⟩
    exact parsed

/-- An optional field holds what its parser returned. -/
theorem optionalField_eq_ok {α : Type} {payload : TransactionInput.Payload} {name : String}
    {parse : Option String → Except String α} {value : Option α}
    (read : TransactionInput.field payload name (some none) (orNone parse) = .ok value) :
    ∀ a ∈ value, ∃ text, parse text = .ok a := by
  intro a present
  rcases field_eq_ok read with left | ⟨text, parsed⟩
  · cases left
    cases present
  · exact ⟨text, orNone_eq_ok parsed a present⟩

variable {parsers : FieldParsers} {payload : TransactionInput.Payload} {transaction : NewTransaction}

theorem modelValidate_accepts (enforces : parsers.Enforces)
    (validated : TransactionInput.modelValidate parsers payload = .ok transaction) :
    TransactionInput.Accepts transaction := by
  unfold TransactionInput.modelValidate at validated
  simp only at validated
  split at validated
  · next externalId transactionType occurredAt symbol quantity unitPrice cashAmount fees
      externalIdOk transactionTypeOk occurredAtOk symbolOk quantityOk unitPriceOk cashAmountOk feesOk =>
    split at validated
    · cases validated
    · next matched =>
      cases validated
      refine ⟨?_, ?_, fun q present => ?_, fun q present => ?_, fun q present => ?_, fun q present => ?_, ?_, matched⟩
      · obtain absent | ⟨text, parsed⟩ := field_eq_ok externalIdOk
        · cases absent
        · exact enforces.string _ _ _ parsed
      · obtain absent | ⟨text, parsed⟩ := field_eq_ok occurredAtOk
        · cases absent
        · obtain ⟨value, _, zoned⟩ := Checked.bind_eq_ok.mp parsed
          obtain ⟨aware, same⟩ := Checked.guard_eq_ok.mp zoned
          cases same
          exact not_not.mp aware
      · obtain ⟨text, parsed⟩ := optionalField_eq_ok symbolOk q present
        exact enforces.string _ _ _ parsed
      · obtain ⟨text, parsed⟩ := optionalField_eq_ok quantityOk q present
        exact enforces.decimal _ _ _ parsed
      · obtain ⟨text, parsed⟩ := optionalField_eq_ok unitPriceOk q present
        exact enforces.decimal _ _ _ parsed
      · obtain ⟨text, parsed⟩ := optionalField_eq_ok cashAmountOk q present
        exact enforces.decimal _ _ _ parsed
      · obtain default | ⟨text, parsed⟩ := field_eq_ok feesOk
        · cases default
          exact ⟨rfl, by simp [Decimal.value], by simp [feesField], 0, by decide, by simp [Decimal.value]⟩
        · exact enforces.decimal _ _ _ parsed
  · cases validated

end Fields

/-- An admitted number is quantized without an error, and keeps its value. -/
theorem quantizeExact_admitted {field : DecimalField} {value : Option Decimal}
    (admitted : ∀ q ∈ value, field.Admits q) (digits : field.maxDigits ≤ defaultPrecision) (fieldName : String) :
    ∃ result, quantizeExact value (.finite false 1 (-field.decimalPlaces)) fieldName = .ok result ∧
      SameNumber value result := by
  have known : ∃ known, SameNumber value known ∧
      ∀ q ∈ known, IsQuantized defaultPrecision (-field.decimalPlaces) q := by
    cases value with
    | none => exact ⟨none, trivial, by simp⟩
    | some x =>
      obtain ⟨units, bound, whole⟩ := (admitted x rfl).digits
      refine ⟨some (.finite false units (-field.decimalPlaces)), ⟨(admitted x rfl).isFinite, rfl, ?_⟩, ?_⟩
      · rw [whole]
        simp [Decimal.value, div_eq_mul_inv]
      · rintro _ ⟨⟩
        exact ⟨false, units, rfl, bound.trans_le (Nat.pow_le_pow_right (by decide) digits)⟩
  obtain ⟨known, same, quantized⟩ := known
  obtain ⟨result, computed, back⟩ := quantizeExact_complete same quantized fieldName
  exact ⟨result, computed, same.trans back.symm⟩

variable [UnicodeDatabase]

/-- What `_build_transaction` makes of an accepted request: nothing is refused, and no number changes. -/
theorem TransactionInput.Accepts.builds {newTransaction : NewTransaction}
    (accepts : TransactionInput.Accepts newTransaction)
    (convertible : newTransaction.occurredAt.astimezoneUtc.isSome) (portfolioId transactionId : UUID)
    (createdAt : DateTime) :
    ∃ t, buildTransaction portfolioId newTransaction transactionId createdAt = .ok t ∧
      BuiltNumbers newTransaction t := by
  obtain ⟨occurredAt, converted⟩ := Option.isSome_iff_exists.mp convertible
  have shifted : astimezoneUtc newTransaction.occurredAt = .ok occurredAt :=
    astimezoneUtc_eq_ok.mpr (DateTime.astimezoneUtc_eq_some.mp converted)
  obtain ⟨quantity, quantityOk, quantitySame⟩ := quantizeExact_admitted accepts.quantity (by decide) "quantity"
  obtain ⟨unitPrice, unitPriceOk, unitPriceSame⟩ := quantizeExact_admitted accepts.unitPrice (by decide) "unit_price"
  obtain ⟨cashAmount, cashAmountOk, cashAmountSame⟩ :=
    quantizeExact_admitted accepts.cashAmount (by decide) "cash_amount"
  have feesAdmitted : ∀ q ∈ some newTransaction.fees, feesField.Admits q := by
    rintro _ ⟨⟩
    exact accepts.fees
  obtain ⟨fees, feesOk, feesSame⟩ := quantizeExact_admitted feesAdmitted (by decide) "fees"
  obtain ⟨fees, rfl⟩ := quantizeExact_some feesOk
  have run := buildTransaction_of_parts accepts.occurredAt shifted quantityOk unitPriceOk cashAmountOk feesOk
    portfolioId transactionId createdAt
  refine ⟨_, run, (BuiltFrom.of_eq_ok run).numbers_of_finite quantitySame.symm.finite unitPriceSame.symm.finite
    cashAmountSame.symm.finite ?_⟩
  simp only [orElseFalsy]
  split
  · exact feesSame.symm.finite fees rfl
  · rfl

end LedgerLens

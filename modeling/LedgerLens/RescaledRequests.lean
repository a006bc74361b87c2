import LedgerLens.Payloads
import LedgerLens.UnitChanges

namespace LedgerLens
open Decimal (Context IsQuantized Rescaled)
open Checked (Parallel)

section Quanta

/-- A number that a quantum lets through: a finite one has to be so many units of the last place, with no more digits
than the default context keeps. -/
def PassesQuantum (target : Int) (x : Decimal) : Prop :=
  x.isFinite → ∃ known, IsQuantized defaultPrecision target known ∧ known.value = x.value

/-- A number that passes keeps its value. -/
theorem quantizeExact_respelled {target : Int} {value : Option Decimal} (passes : ∀ x ∈ value, PassesQuantum target x)
    (fieldName : String) :
    ∃ result, quantizeExact value (.finite false 1 target) fieldName = .ok result ∧
      Option.Rel (Rescaled 1) value result := by
  cases value with
  | none => exact ⟨none, rfl, .none⟩
  | some x =>
    by_cases finite : x.isFinite
    · obtain ⟨known, quantized, same⟩ := passes x rfl finite
      have knownFinite : known.isFinite := by
        obtain ⟨_, _, rfl, _⟩ := quantized
        rfl
      have spelled : SameNumber (some x) (some known) := ⟨finite, knownFinite, same.symm⟩
      have every : ∀ q ∈ some known, IsQuantized defaultPrecision target q := by
        rintro _ ⟨⟩
        exact quantized
      obtain ⟨result, computed, kept⟩ := quantizeExact_complete spelled every fieldName
      obtain ⟨result, rfl⟩ := quantizeExact_some computed
      obtain ⟨resultFinite, _, value⟩ := kept
      refine ⟨some result, computed, .some ⟨resultFinite.trans finite.symm, ?_⟩⟩
      rw [one_mul, value, same]
    · exact ⟨some x, if_pos finite, .some ⟨rfl, (one_mul _).symm⟩⟩

/-- Where the quanta refuse a number. -/
theorem quantizeExact_isOk_iff (target : Int) (x : Decimal) (fieldName : String) :
    (∃ result, quantizeExact (some x) (.finite false 1 target) fieldName = .ok result) ↔ PassesQuantum target x := by
  constructor
  · rintro ⟨result, quantized⟩ finite
    simp only [quantizeExact, finite, not_true, if_false] at quantized
    split at quantized
    · cases quantized
    · next normalized computed =>
      obtain ⟨exact, _⟩ := Checked.guard_eq_ok.mp quantized
      have shape := Decimal.isQuantized_of_quantize computed finite
      have normalizedFinite : normalized.isFinite := by
        obtain ⟨_, _, rfl, _⟩ := shape
        rfl
      exact ⟨normalized, shape, (Decimal.numEq_iff_value normalizedFinite finite).mp (not_not.mp exact)⟩
  · intro passes
    obtain ⟨result, computed, _⟩ := quantizeExact_respelled
      (by rintro _ ⟨⟩; exact passes : ∀ q ∈ some x, PassesQuantum target q) fieldName
    exact ⟨result, computed⟩

theorem quantizeExact_rescaled {factor : ℚ} {target : Int} {value value' : Option Decimal}
    (rescaled : Option.Rel (Rescaled factor) value value') (passes : ∀ x ∈ value, PassesQuantum target x)
    (passes' : ∀ x ∈ value', PassesQuantum target x) (fieldName : String) :
    Parallel Eq (Option.Rel (Rescaled factor)) (quantizeExact value (.finite false 1 target) fieldName)
      (quantizeExact value' (.finite false 1 target) fieldName) := by
  obtain ⟨result, computed, kept⟩ := quantizeExact_respelled passes fieldName
  obtain ⟨result', computed', kept'⟩ := quantizeExact_respelled passes' fieldName
  rw [computed, computed']
  cases rescaled with
  | none =>
    cases kept
    cases kept'
    exact .ok .none
  | some rescaled =>
    cases kept with
    | some left =>
      cases kept' with
      | some right => exact .ok (.some (rescaled.respell left right))

/-- The fallback for what is falsy is another spelling of it. -/
theorem orElseFalsy_respelled (x : Decimal) (exponent : Int) :
    Rescaled 1 x (orElseFalsy (some x) (.finite false 0 exponent)) := by
  by_cases truthy : x.truthy
  · rw [orElseFalsy, if_pos truthy]
    exact ⟨rfl, (one_mul _).symm⟩
  · rw [orElseFalsy, if_neg truthy]
    cases x with
    | finite negative coefficient e =>
      have zero : coefficient = 0 := by simpa [Decimal.truthy] using truthy
      exact ⟨rfl, by simp [Decimal.value, zero]⟩
    | infinity _ | nan _ => exact absurd rfl truthy

/-- The amounts of a request pass the quanta of `_build_transaction`. -/
structure NewTransaction.PassesQuanta (newTransaction : NewTransaction) : Prop where
  quantity : ∀ x ∈ newTransaction.quantity, PassesQuantum (-12) x
  unitPrice : ∀ x ∈ newTransaction.unitPrice, PassesQuantum (-8) x
  cashAmount : ∀ x ∈ newTransaction.cashAmount, PassesQuantum (-8) x
  fees : PassesQuantum (-8) newTransaction.fees

end Quanta

section Payloads
variable {ctx : Context} {units : Units ctx}

theorem numEq_rescaled {factor : ℚ} (positive : 0 < factor) {x x' y y' : Decimal} (left : Rescaled factor x x')
    (right : Rescaled factor y y') (finite : y.isFinite) : x'.numEq y' = x.numEq y := by
  have finite' : y'.isFinite := right.finite.trans finite
  by_cases given : x.isFinite
  · refine Bool.eq_iff_iff.mpr ?_
    rw [Decimal.numEq_iff_value (left.finite.trans given) finite', Decimal.numEq_iff_value given finite, left.value,
      right.value, mul_right_inj' positive.ne']
  · have given' : ¬ x'.isFinite := left.finite ▸ given
    cases y with
    | finite _ _ _ =>
      cases y' with
      | finite _ _ _ =>
        cases x with
        | finite _ _ _ => exact absurd rfl given
        | infinity _ | nan _ =>
          cases x' with
          | finite _ _ _ => exact absurd rfl given'
          | infinity _ | nan _ => rfl
      | infinity _ | nan _ => cases finite'
    | infinity _ | nan _ => cases finite

theorem optionNumEq_rescaled {factor : ℚ} (positive : 0 < factor) {x x' y y' : Option Decimal}
    (left : Option.Rel (Rescaled factor) x x') (right : Option.Rel (Rescaled factor) y y')
    (finite : ∀ amount ∈ y, amount.isFinite) : optionNumEq x' y' = optionNumEq x y := by
  cases left with
  | none => cases right <;> rfl
  | some left =>
    cases right with
    | none => rfl
    | some right => exact numEq_rescaled positive left right (finite _ rfl)

/-- Payloads are told apart in the other units as in these. -/
theorem sameTransactionPayload_rescaled [UnicodeDatabase] {existing existing' t t' : Transaction}
    (stored : units.SameTransaction existing existing') (same : units.SameTransaction t t') (valid : t.Valid) :
    sameTransactionPayload existing' t' = sameTransactionPayload existing t := by
  obtain ⟨quantity, unitPrice, cashAmount⟩ := valid.numbers_finite
  have money_pos := units.money_scales.positive
  have amounts (symbols : existing.symbol = t.symbol) :
      optionNumEq existing'.quantity t'.quantity = optionNumEq existing.quantity t.quantity ∧
        optionNumEq existing'.unitPrice t'.unitPrice = optionNumEq existing.unitPrice t.unitPrice := by
    have quantities := stored.quantity
    have prices := stored.unitPrice
    rw [symbols] at quantities prices
    exact ⟨optionNumEq_rescaled (units.shares_scales _).positive quantities same.quantity quantity,
      optionNumEq_rescaled (units.price_pos _) prices same.unitPrice unitPrice⟩
  have cash := optionNumEq_rescaled money_pos stored.cashAmount same.cashAmount cashAmount
  have fees := numEq_rescaled money_pos stored.fees same.fees valid.fees_finite
  by_cases symbols : existing.symbol = t.symbol
  · obtain ⟨quantities, prices⟩ := amounts symbols
    simp only [sameTransactionPayload, stored.portfolioId, same.portfolioId, stored.externalId, same.externalId,
      stored.transactionType, same.transactionType, stored.occurredAt, same.occurredAt, stored.symbol, same.symbol,
      quantities, prices, cash, fees]
  · have different (a b : Transaction) (apart : a.symbol ≠ b.symbol) : sameTransactionPayload a b = false := by
      simp [sameTransactionPayload, apart]
    rw [different existing t symbols, different existing' t' (by rwa [stored.symbol, same.symbol])]

end Payloads

section Requests
variable [UnicodeDatabase] {ctx : Context}

/-- The symbol as it is stored. -/
def NewTransaction.normalizedSymbol (newTransaction : NewTransaction) : Option String :=
  newTransaction.symbol.map fun symbol => Text.upper (Text.strip symbol)

/-- A request and the same one in the other units. -/
structure Units.SameNewTransaction (units : Units ctx) (newTransaction newTransaction' : NewTransaction) : Prop where
  unchanged : newTransaction' = { newTransaction with
    quantity := newTransaction'.quantity, unitPrice := newTransaction'.unitPrice,
    cashAmount := newTransaction'.cashAmount, fees := newTransaction'.fees }
  quantity : Option.Rel (Rescaled (units.shares (newTransaction.normalizedSymbol.getD ""))) newTransaction.quantity
    newTransaction'.quantity
  unitPrice : Option.Rel (Rescaled (units.price (newTransaction.normalizedSymbol.getD ""))) newTransaction.unitPrice
    newTransaction'.unitPrice
  cashAmount : Option.Rel (Rescaled units.money) newTransaction.cashAmount newTransaction'.cashAmount
  fees : Rescaled units.money newTransaction.fees newTransaction'.fees

/-- The quanta refuse all other requests. -/
theorem passesQuanta_of_built {portfolioId transactionId : UUID} {newTransaction : NewTransaction}
    {createdAt : DateTime} {t : Transaction}
    (built : buildTransaction portfolioId newTransaction transactionId createdAt = .ok t) :
    newTransaction.PassesQuanta := by
  have from_request := BuiltFrom.of_eq_ok built
  have passes {target : Int} {value result : Option Decimal} {fieldName : String}
      (quantized : quantizeExact value (.finite false 1 target) fieldName = .ok result) :
      ∀ x ∈ value, PassesQuantum target x := by
    rintro x rfl
    exact (quantizeExact_isOk_iff target x fieldName).mp ⟨result, quantized⟩
  obtain ⟨fees, quantized, _⟩ := from_request.fees
  exact ⟨passes from_request.quantity, passes from_request.unitPrice, passes from_request.cashAmount,
    passes quantized _ rfl⟩

/-- Requests for the same in other units are built into the same in other units, or refused alike. -/
theorem buildTransaction_rescaled {units : Units ctx} {newTransaction newTransaction' : NewTransaction}
    (same : units.SameNewTransaction newTransaction newTransaction') (passes : newTransaction.PassesQuanta)
    (passes' : newTransaction'.PassesQuanta) (portfolioId transactionId : UUID) (createdAt : DateTime) :
    Parallel Eq units.SameTransaction (buildTransaction portfolioId newTransaction transactionId createdAt)
      (buildTransaction portfolioId newTransaction' transactionId createdAt) := by
  have quantity := quantizeExact_rescaled same.quantity passes.quantity passes'.quantity "quantity"
  have unitPrice := quantizeExact_rescaled same.unitPrice passes.unitPrice passes'.unitPrice "unit_price"
  have cashAmount := quantizeExact_rescaled same.cashAmount passes.cashAmount passes'.cashAmount "cash_amount"
  have every {x : Decimal} (passes : PassesQuantum (-8) x) : ∀ q ∈ some x, PassesQuantum (-8) q := by
    rintro _ ⟨⟩
    exact passes
  have fees := quantizeExact_rescaled (.some same.fees) (every passes.fees) (every passes'.fees) "fees"
  obtain ⟨externalId, transactionType, occurredAt, symbol, _, _, _, _⟩ := newTransaction
  obtain ⟨externalId', transactionType', occurredAt', symbol', _, _, _, _⟩ := newTransaction'
  cases same.unchanged
  refine .after _ fun occurredAt => ?_
  refine quantity.bind fun quantity quantity' quantityRescaled => ?_
  refine unitPrice.bind fun unitPrice unitPrice' priceRescaled => ?_
  refine cashAmount.bind fun cashAmount cashAmount' cashRescaled => ?_
  refine fees.bind fun fees fees' feesRescaled => ?_
  cases feesRescaled with
  | none =>
    have zero : Rescaled units.money (.finite false 0 (-8)) (.finite false 0 (-8)) := ⟨rfl, by simp [Decimal.value]⟩
    exact .ok ⟨rfl, quantityRescaled, priceRescaled, cashRescaled, zero⟩
  | some feesRescaled =>
    exact .ok ⟨rfl, quantityRescaled, priceRescaled, cashRescaled,
      feesRescaled.respell (orElseFalsy_respelled _ _) (orElseFalsy_respelled _ _)⟩

end Requests
end LedgerLens

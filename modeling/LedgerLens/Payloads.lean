import LedgerLens.NormalizedTransactions

namespace LedgerLens
open Decimal (IsQuantized)

/-- Two optional numbers are absent together, or equal in value however they are spelled. -/
def SameNumber : Option Decimal → Option Decimal → Prop
  | none, none => True
  | some x, some y => x.isFinite ∧ y.isFinite ∧ x.value = y.value
  | _, _ => False

theorem SameNumber.symm {x y : Option Decimal} (same : SameNumber x y) : SameNumber y x := by
  cases x <;> cases y <;> first | exact same | exact ⟨same.2.1, same.1, same.2.2.symm⟩

theorem SameNumber.trans {x y z : Option Decimal} (first : SameNumber x y) (second : SameNumber y z) :
    SameNumber x z := by
  cases x <;> cases y <;> cases z <;>
    first | exact first.elim | exact second.elim | exact ⟨first.1, second.2.1, first.2.2.trans second.2.2⟩ | trivial

theorem SameNumber.finite {x y : Option Decimal} (same : SameNumber x y) : ∀ q ∈ x, q.isFinite := by
  cases x <;> cases y <;> simp_all [SameNumber]

theorem SameNumber.of_some {x : Decimal} {y : Option Decimal} (same : SameNumber (some x) y) :
    ∃ other, y = some other ∧ other.isFinite ∧ x.value = other.value := by
  cases y with
  | none => exact same.elim
  | some other => exact ⟨other, rfl, same.2⟩

theorem SameNumber.of_none {y : Option Decimal} (same : SameNumber none y) : y = none := by
  cases y with
  | none => rfl
  | some other => exact same.elim

theorem optionNumEq_iff {x y : Option Decimal} (left : ∀ q ∈ x, q.isFinite) (right : ∀ q ∈ y, q.isFinite) :
    optionNumEq x y ↔ SameNumber x y := by
  cases x with
  | none => cases y <;> simp [optionNumEq, SameNumber]
  | some x =>
    cases y with
    | none => simp [optionNumEq, SameNumber]
    | some y =>
      have leftFinite := left x rfl
      have rightFinite := right y rfl
      simp [optionNumEq, SameNumber, Decimal.numEq_iff_value leftFinite rightFinite, leftFinite, rightFinite]

/-- A number that quantizes exactly keeps its value. -/
theorem quantizeExact_sound {value result : Option Decimal} {target : Int} {fieldName : String}
    (quantized : quantizeExact value (.finite false 1 target) fieldName = .ok result)
    (isFinite : ∀ q ∈ result, q.isFinite) :
    SameNumber value result ∧ ∀ q ∈ result, IsQuantized defaultPrecision target q := by
  cases value with
  | none =>
    cases quantized
    exact ⟨trivial, by simp⟩
  | some x =>
    simp only [quantizeExact] at quantized
    split at quantized
    · next special =>
      cases quantized
      exact absurd (isFinite x rfl) special
    · next finite =>
      split at quantized
      · cases quantized
      · next normalized computed =>
        obtain ⟨exact, result⟩ := Checked.guard_eq_ok.mp quantized
        cases result
        have shape := Decimal.isQuantized_of_quantize computed (not_not.mp finite)
        have normalizedFinite := isFinite normalized rfl
        have same := (Decimal.numEq_iff_value normalizedFinite (not_not.mp finite)).mp (not_not.mp exact)
        exact ⟨⟨not_not.mp finite, normalizedFinite, same.symm⟩, by rintro _ ⟨⟩; exact shape⟩

/-- Every spelling of a quantized number quantizes exactly. -/
theorem quantizeExact_complete {value known : Option Decimal} {target : Int} (same : SameNumber value known)
    (quantized : ∀ q ∈ known, IsQuantized defaultPrecision target q) (fieldName : String) :
    ∃ result, quantizeExact value (.finite false 1 target) fieldName = .ok result ∧ SameNumber result known := by
  cases value with
  | none =>
    cases known with
    | none => exact ⟨none, rfl, trivial⟩
    | some y => exact same.elim
  | some x =>
    cases known with
    | none => exact same.elim
    | some y =>
      obtain ⟨xFinite, yFinite, equal⟩ := same
      obtain ⟨result, computed, finite, value⟩ := Decimal.quantize_of_value (quantized y rfl) xFinite equal
      have normalized : x.quantize defaultPrecision (.finite false 1 target) = some result := computed
      refine ⟨some result, ?_, finite, yFinite, value⟩
      have exact : result.numEq x := (Decimal.numEq_iff_value finite xFinite).mpr (value.trans equal.symm)
      simp only [quantizeExact, xFinite, normalized, exact, not_true, if_false]

theorem quantizeExact_some {x : Decimal} {quantum : Decimal} {fieldName : String} {result : Option Decimal}
    (quantized : quantizeExact (some x) quantum fieldName = .ok result) : ∃ q, result = some q := by
  simp only [quantizeExact] at quantized
  split at quantized
  · exact ⟨x, (Except.ok.inj quantized).symm⟩
  · split at quantized
    · cases quantized
    · next normalized _ => exact ⟨normalized, (Except.ok.inj (Checked.guard_eq_ok.mp quantized).2).symm⟩

/-- A falsy number is zero, so `x or zero` keeps the value. -/
theorem sameNumber_orElseFalsy {x : Decimal} (exponent : Int)
    (isFinite : (orElseFalsy (some x) (.finite false 0 exponent)).isFinite) :
    SameNumber (some x) (some (orElseFalsy (some x) (.finite false 0 exponent))) := by
  by_cases truthy : x.truthy
  · simp only [orElseFalsy, truthy, if_true] at isFinite ⊢
    exact ⟨isFinite, isFinite, rfl⟩
  · simp only [orElseFalsy, truthy, if_neg Bool.false_ne_true]
    cases x with
    | finite negative coefficient e =>
      have zero : coefficient = 0 := by simpa [Decimal.truthy] using truthy
      exact ⟨rfl, rfl, by simp [Decimal.value, zero]⟩
    | infinity _ | nan _ => exact absurd rfl truthy

variable [UnicodeDatabase]

theorem Transaction.Valid.numbers_finite {t : Transaction} (valid : t.Valid) :
    (∀ q ∈ t.quantity, q.isFinite) ∧ (∀ q ∈ t.unitPrice, q.isFinite) ∧ ∀ q ∈ t.cashAmount, q.isFinite := by
  by_cases trade : t.transactionType.isTrade
  · obtain ⟨symbol, quantity, unitPrice, payload⟩ := valid.trade trade
    rw [payload.quantity_eq, payload.unitPrice_eq, payload.cashAmount_eq]
    exact ⟨by rintro _ ⟨⟩; exact payload.quantity_finite, by rintro _ ⟨⟩; exact payload.unitPrice_finite, by simp⟩
  · obtain ⟨cashAmount, payload⟩ := valid.transfer trade
    rw [payload.quantity_eq, payload.unitPrice_eq, payload.cashAmount_eq]
    exact ⟨by simp, by simp, by rintro _ ⟨⟩; exact payload.cashAmount_finite⟩

/-- A request asks for what a stored transaction says, in whatever spelling: blanks around the symbol
and its case, the scale of the numbers, and the UTC offset of the time play no part. -/
structure SamePayload (newTransaction : NewTransaction) (t : Transaction) : Prop where
  transactionType : newTransaction.transactionType = t.transactionType
  aware : newTransaction.occurredAt.isAware
  instant : newTransaction.occurredAt.instant = t.occurredAt.instant
  symbol : (newTransaction.symbol.map fun symbol => Text.upper (Text.strip symbol)) = t.symbol
  quantity : SameNumber newTransaction.quantity t.quantity
  unitPrice : SameNumber newTransaction.unitPrice t.unitPrice
  cashAmount : SameNumber newTransaction.cashAmount t.cashAmount
  fees : SameNumber (some newTransaction.fees) (some t.fees)

/-- The numbers of a built and validated transaction, compared with the request they come from. -/
structure BuiltNumbers (newTransaction : NewTransaction) (t : Transaction) : Prop where
  quantity : SameNumber newTransaction.quantity t.quantity
  unitPrice : SameNumber newTransaction.unitPrice t.unitPrice
  cashAmount : SameNumber newTransaction.cashAmount t.cashAmount
  fees : SameNumber (some newTransaction.fees) (some t.fees)
  quantity_quantized : ∀ q ∈ t.quantity, IsQuantized defaultPrecision (-12) q
  unitPrice_quantized : ∀ q ∈ t.unitPrice, IsQuantized defaultPrecision (-8) q
  cashAmount_quantized : ∀ q ∈ t.cashAmount, IsQuantized defaultPrecision (-8) q
  fees_quantized : IsQuantized defaultPrecision (-8) t.fees

theorem BuiltFrom.numbers_of_finite {portfolioId transactionId : UUID} {newTransaction : NewTransaction}
    {createdAt : DateTime} {t : Transaction} (built : BuiltFrom portfolioId newTransaction transactionId createdAt t)
    (quantityFinite : ∀ q ∈ t.quantity, q.isFinite) (unitPriceFinite : ∀ q ∈ t.unitPrice, q.isFinite)
    (cashAmountFinite : ∀ q ∈ t.cashAmount, q.isFinite) (feesFinite : t.fees.isFinite) :
    BuiltNumbers newTransaction t := by
  have quantity := quantizeExact_sound built.quantity quantityFinite
  have unitPrice := quantizeExact_sound built.unitPrice unitPriceFinite
  have cashAmount := quantizeExact_sound built.cashAmount cashAmountFinite
  have fees : SameNumber (some newTransaction.fees) (some t.fees) ∧ IsQuantized defaultPrecision (-8) t.fees := by
    obtain ⟨fees, quantized, chosen⟩ := built.fees
    obtain ⟨fees, rfl⟩ := quantizeExact_some quantized
    rw [chosen] at feesFinite ⊢
    have kept := sameNumber_orElseFalsy (-8) feesFinite
    obtain ⟨same, shape⟩ := quantizeExact_sound quantized kept.finite
    refine ⟨same.trans kept, ?_⟩
    by_cases truthy : fees.truthy
    · simpa only [orElseFalsy, truthy, if_true] using shape fees rfl
    · simp only [orElseFalsy, truthy, if_neg Bool.false_ne_true]
      exact ⟨false, 0, rfl, by decide⟩
  exact ⟨quantity.1, unitPrice.1, cashAmount.1, fees.1, quantity.2, unitPrice.2, cashAmount.2, fees.2⟩

theorem BuiltFrom.numbers {portfolioId transactionId : UUID} {newTransaction : NewTransaction}
    {createdAt : DateTime} {t : Transaction} (built : BuiltFrom portfolioId newTransaction transactionId createdAt t)
    (valid : t.Valid) : BuiltNumbers newTransaction t := by
  obtain ⟨quantityFinite, unitPriceFinite, cashAmountFinite⟩ := valid.numbers_finite
  exact built.numbers_of_finite quantityFinite unitPriceFinite cashAmountFinite valid.fees_finite

/-- The comparison of `_same_transaction_payload`, spelled out. -/
structure SameStored (t other : Transaction) : Prop where
  portfolioId : t.portfolioId = other.portfolioId
  externalId : t.externalId = other.externalId
  transactionType : t.transactionType = other.transactionType
  occurredAt : sameTime t.occurredAt other.occurredAt
  symbol : t.symbol = other.symbol
  quantity : SameNumber t.quantity other.quantity
  unitPrice : SameNumber t.unitPrice other.unitPrice
  cashAmount : SameNumber t.cashAmount other.cashAmount
  fees : SameNumber (some t.fees) (some other.fees)

theorem sameTransactionPayload_iff {t other : Transaction} (valid : t.Valid) (otherValid : other.Valid) :
    sameTransactionPayload t other ↔ SameStored t other := by
  obtain ⟨quantity, unitPrice, cashAmount⟩ := valid.numbers_finite
  obtain ⟨otherQuantity, otherUnitPrice, otherCashAmount⟩ := otherValid.numbers_finite
  have fees : t.fees.numEq other.fees ↔ SameNumber (some t.fees) (some other.fees) := by
    rw [Decimal.numEq_iff_value valid.fees_finite otherValid.fees_finite]
    exact ⟨fun same => ⟨valid.fees_finite, otherValid.fees_finite, same⟩, fun same => same.2.2⟩
  simp only [sameTransactionPayload, decide_eq_true_eq, optionNumEq_iff quantity otherQuantity,
    optionNumEq_iff unitPrice otherUnitPrice, optionNumEq_iff cashAmount otherCashAmount, fees]
  exact ⟨fun ⟨a, b, c, d, e, f, g, h, i⟩ => ⟨a, b, c, d, e, f, g, h, i⟩,
    fun ⟨a, b, c, d, e, f, g, h, i⟩ => ⟨a, b, c, d, e, f, g, h, i⟩⟩

/-- What a request replays is exactly what it asks for. -/
theorem SamePayload.of_same {t built : Transaction} {newTransaction : NewTransaction} {portfolioId id : UUID}
    {now : DateTime} (from_request : BuiltFrom portfolioId newTransaction id now built) (builtValid : built.Valid)
    (same : SameStored t built) : SamePayload newTransaction t := by
  have numbers := from_request.numbers builtValid
  have aware : newTransaction.occurredAt.isAware := by
    by_contra naive
    have kept := from_request.occurredAt_of_naive naive
    exact naive (kept ▸ builtValid.occurredAt)
  have times := same.occurredAt
  simp only [sameTime, decide_eq_true_eq] at times
  exact {
    transactionType := by rw [same.transactionType, from_request.transactionType_eq]
    aware := aware
    instant := by rw [← (from_request.occurredAt_of_aware aware).2, times.2]
    symbol := by rw [same.symbol, from_request.symbol_eq]
    quantity := numbers.quantity.trans same.quantity.symm
    unitPrice := numbers.unitPrice.trans same.unitPrice.symm
    cashAmount := numbers.cashAmount.trans same.cashAmount.symm
    fees := numbers.fees.trans same.fees.symm }

/-- What passes the rules passes them in another spelling. -/
theorem Transaction.Valid.of_sameStored {t other : Transaction} (valid : t.Valid) (same : SameStored t other)
    (created : ∀ createdAt ∈ other.createdAt, createdAt.isAware) : other.Valid := by
  have times := same.occurredAt
  simp only [sameTime, decide_eq_true_eq] at times
  obtain ⟨_, feesFinite, feesEq⟩ := same.fees
  refine ⟨same.externalId ▸ valid.externalId, times.1 ▸ valid.occurredAt, created, feesFinite,
    feesEq ▸ valid.fees_nonneg, fun trade => ?_, fun transfer => ?_⟩
  · obtain ⟨symbol, quantity, unitPrice, payload⟩ := valid.trade (same.transactionType ▸ trade)
    obtain ⟨quantity', quantityEq, quantityFinite, quantityValue⟩ := (payload.quantity_eq ▸ same.quantity).of_some
    obtain ⟨unitPrice', priceEq, priceFinite, priceValue⟩ := (payload.unitPrice_eq ▸ same.unitPrice).of_some
    exact ⟨symbol, quantity', unitPrice', same.symbol ▸ payload.symbol_eq, payload.symbol_nonblank,
      payload.symbol_upper, quantityEq, quantityFinite, quantityValue ▸ payload.quantity_pos, priceEq, priceFinite,
      priceValue ▸ payload.unitPrice_pos, (payload.cashAmount_eq ▸ same.cashAmount).of_none⟩
  · obtain ⟨cashAmount, payload⟩ := valid.transfer (same.transactionType ▸ transfer)
    obtain ⟨cashAmount', cashEq, cashFinite, cashValue⟩ := (payload.cashAmount_eq ▸ same.cashAmount).of_some
    exact ⟨cashAmount', same.symbol ▸ payload.symbol_eq, (payload.quantity_eq ▸ same.quantity).of_none,
      (payload.unitPrice_eq ▸ same.unitPrice).of_none, cashEq, cashFinite, cashValue ▸ payload.cashAmount_pos⟩

/-- A request for what is already stored is built and validated, whatever its spelling. -/
theorem SamePayload.builds {t : Transaction} {newTransaction : NewTransaction}
    (same : SamePayload newTransaction t) (built : t.Built) (valid : t.Valid)
    (carries : Text.strip newTransaction.externalId = t.externalId) (fresh : Fresh) :
    ∃ other, buildTransaction t.portfolioId newTransaction fresh.id fresh.now = .ok other ∧ other.Valid ∧
      SameStored t other := by
  have utc := built.occurredAt_isUtc valid
  obtain ⟨request, stamp, built⟩ := built
  have numbers := (BuiltFrom.of_eq_ok built).numbers valid
  obtain ⟨quantity, quantityOk, quantitySame⟩ :=
    quantizeExact_complete same.quantity numbers.quantity_quantized "quantity"
  obtain ⟨unitPrice, unitPriceOk, unitPriceSame⟩ :=
    quantizeExact_complete same.unitPrice numbers.unitPrice_quantized "unit_price"
  obtain ⟨cashAmount, cashAmountOk, cashAmountSame⟩ :=
    quantizeExact_complete same.cashAmount numbers.cashAmount_quantized "cash_amount"
  obtain ⟨fees, feesOk, feesSame⟩ := quantizeExact_complete same.fees
    (by rintro _ ⟨⟩; exact numbers.fees_quantized) "fees"
  obtain ⟨fees, rfl⟩ := quantizeExact_some feesOk
  have shifted := astimezoneUtc_eq_ok.mpr ⟨utc, same.instant.symm⟩
  have run := buildTransaction_of_parts same.aware shifted quantityOk unitPriceOk cashAmountOk feesOk t.portfolioId
    fresh.id fresh.now
  have feesFinite : (orElseFalsy (some fees) (.finite false 0 (-8))).isFinite := by
    unfold orElseFalsy
    simp only
    split
    · exact feesSame.finite fees rfl
    · rfl
  have withSame : ∀ other, buildTransaction t.portfolioId newTransaction fresh.id fresh.now = .ok other →
      SameStored t other → ∃ other, buildTransaction t.portfolioId newTransaction fresh.id fresh.now = .ok other ∧
        other.Valid ∧ SameStored t other := by
    intro other run stored
    refine ⟨other, run, valid.of_sameStored stored fun createdAt recorded => ?_, stored⟩
    rw [(BuiltFrom.of_eq_ok run).createdAt_eq] at recorded
    cases recorded
    exact fresh.aware
  exact withSame _ run {
    portfolioId := rfl
    externalId := carries.symm
    transactionType := same.transactionType.symm
    occurredAt := by simp [sameTime]
    symbol := same.symbol.symm
    quantity := quantitySame.symm
    unitPrice := unitPriceSame.symm
    cashAmount := cashAmountSame.symm
    fees := feesSame.symm.trans (sameNumber_orElseFalsy (-8) feesFinite) }

end LedgerLens

import LedgerLens.BuildTransaction

namespace LedgerLens
open Decimal (Context)

/-- The decimal context a Python program starts with. -/
def defaultContext : Context := .rounded defaultPrecision

/-- The non-negative numbers that the `max_digits` and `decimal_places` of a field let through. -/
def WithinDigits (maxDigits decimalPlaces : Nat) (x : ℚ) : Prop :=
  ∃ units < 10 ^ maxDigits, x = (units : ℕ) / 10 ^ decimalPlaces

/-- The bounds of `TransactionInput`. -/
structure Transaction.WithinBounds (t : Transaction) : Prop where
  quantity : ∀ quantity ∈ t.quantity, WithinDigits 28 12 quantity.value
  unitPrice : ∀ unitPrice ∈ t.unitPrice, WithinDigits 20 8 unitPrice.value
  cashAmount : ∀ cashAmount ∈ t.cashAmount, WithinDigits 20 8 cashAmount.value
  fees : WithinDigits 20 8 t.fees.value

/-- A number that the context stores as it is. -/
def Representable (x : ℚ) : Prop := Rounding.Fits 10 defaultPrecision x

theorem defaultContext_round_eq_self_iff {x : ℚ} : defaultContext.round x = x ↔ Representable x :=
  Rounding.round_eq_self_iff (by decide)

theorem defaultContext_round_representable (x : ℚ) : Representable (defaultContext.round x) :=
  Rounding.round_fits (by decide) (by decide) x

theorem defaultContext_round_round (x : ℚ) : defaultContext.round (defaultContext.round x) = defaultContext.round x :=
  Rounding.round_round (by decide) (by decide) x

theorem representable_zero : Representable 0 := Rounding.fits_zero (by decide)

/-- A number written with so many places is within the digits once its coefficient, with the missing
places appended, is. -/
theorem withinDigits_value {maxDigits decimalPlaces coefficient : Nat} (places : Nat) (few : places ≤ decimalPlaces)
    (fits : coefficient * 10 ^ (decimalPlaces - places) < 10 ^ maxDigits) :
    WithinDigits maxDigits decimalPlaces (Decimal.finite false coefficient (-places)).value := by
  refine ⟨_, fits, ?_⟩
  have split : (10 : ℚ) ^ decimalPlaces = 10 ^ (decimalPlaces - places) * 10 ^ places := by
    rw [← pow_add, Nat.sub_add_cancel few]
  rw [split]
  simp only [Decimal.value, Bool.false_eq_true, if_false, one_mul, zpow_neg, zpow_natCast]
  push_cast
  field_simp

end LedgerLens

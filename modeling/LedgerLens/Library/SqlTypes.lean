import LedgerLens.Library.DateTime
import LedgerLens.Library.Decimal

namespace Sql
open Decimal (IsQuantized)

/-- A text as the server takes it: without a NUL. -/
def text (value : String) : Option String := if '\x00' ∈ value.toList then none else some value

/-- A column `VARCHAR(width)`: of a text that is too long only blanks are cut off, and any other character
that does not fit is an error. -/
def varchar (width : Nat) (value : String) : Option String := do
  let value ← text value
  if value.length ≤ width then some value
  else if (value.toList.drop width).all fun c => c = ' ' then some (String.ofList (value.toList.take width))
  else none

theorem text_of_mem {value : String} (nul : '\x00' ∈ value.toList) : text value = none := if_pos nul

theorem text_of_notMem {value : String} (plain : '\x00' ∉ value.toList) : text value = some value := if_neg plain

/-- A column that is wide enough takes what the server takes. -/
theorem varchar_of_le {width : Nat} {value : String} (fits : value.length ≤ width) :
    varchar width value = text value := by
  by_cases nul : '\x00' ∈ value.toList
  · rw [varchar, text_of_mem nul]
    rfl
  · rw [varchar, text_of_notMem nul]
    exact if_pos fits

/-- A column `TIMESTAMP WITH TIME ZONE` keeps the point in time, and gives it back in UTC. -/
def timestamptz (time : DateTime) : Option DateTime := time.astimezoneUtc

/-- A column `NUMERIC(precision, scale)`. -/
structure Numeric where
  precision : Nat
  scale : Nat

namespace Numeric

/-- `n / d` to the nearest integer, ties away from zero. -/
def divHalfAway (n d : Nat) : Nat := (2 * n + d) / (2 * d)

/-- The number of units of the last place, rounded where a number has more places. -/
def units (column : Numeric) (coefficient : Nat) (exponent : Int) : Nat :=
  if -column.scale ≤ exponent then coefficient * 10 ^ (exponent + column.scale).toNat
  else divHalfAway coefficient (10 ^ (-column.scale - exponent).toNat)

/-- A number of the column has exactly the places of the column, and no negative zero. -/
def store (column : Numeric) : Decimal → Option Decimal
  | .finite negative coefficient exponent =>
    let units := column.units coefficient exponent
    if units < 10 ^ column.precision then some (.finite (negative && units ≠ 0) units (-column.scale)) else none
  | .infinity _ => none
  | .nan _ => some (.nan false)

/-- `x > 0`, where a NaN is greater than every number. -/
def positive : Decimal → Bool
  | .finite negative coefficient exponent => 0 < (Decimal.finite negative coefficient exponent).value
  | .infinity negative => !negative
  | .nan _ => true

/-- `x >= 0` -/
def nonNegative : Decimal → Bool
  | .finite negative coefficient exponent => 0 ≤ (Decimal.finite negative coefficient exponent).value
  | .infinity negative => !negative
  | .nan _ => true

theorem positive_of_pos {x : Decimal} (above : 0 < x.value) : positive x := by
  cases x with
  | finite => exact decide_eq_true above
  | infinity _ | nan _ => exact absurd above (lt_irrefl 0)

theorem nonNegative_iff {x : Decimal} (isFinite : x.isFinite) : nonNegative x ↔ 0 ≤ x.value := by
  cases x with
  | finite => exact decide_eq_true_iff
  | infinity _ | nan _ => cases isFinite

/-- A number that a column keeps as it is. -/
structure Holds (column : Numeric) (x : Decimal) : Prop where
  exact : column.store x = some x
  isFinite : x.isFinite

theorem units_scale (column : Numeric) (coefficient : Nat) :
    column.units coefficient (-column.scale) = coefficient := by
  rw [units, if_pos le_rfl, neg_add_cancel, Int.toNat_zero, pow_zero, mul_one]

theorem store_units (column : Numeric) {units : Nat} (fits : units < 10 ^ column.precision) :
    column.store (.finite false units (-column.scale)) = some (.finite false units (-column.scale)) := by
  simp only [store, units_scale, if_pos fits, Bool.false_and]

theorem holds_units (column : Numeric) {units : Nat} (fits : units < 10 ^ column.precision) :
    column.Holds (.finite false units (-column.scale)) :=
  ⟨column.store_units fits, rfl⟩

/-- A positive number with the places of the column is kept as it is, once it is small enough. -/
theorem holds_of_pos {column : Numeric} {precision : Nat} {x : Decimal}
    (quantized : IsQuantized precision (-column.scale) x) (positive : 0 < x.value)
    (fits : x.value * 10 ^ column.scale < 10 ^ column.precision) : column.Holds x := by
  obtain ⟨negative, units, rfl, _⟩ := quantized
  cases negative with
  | true =>
    have below : (Decimal.finite true units (-column.scale)).value ≤ 0 := by
      have size : (0 : ℚ) ≤ units * 10 ^ (-column.scale : Int) := by positivity
      simp only [Decimal.value, if_true, mul_assoc]
      linarith
    exact absurd positive (not_lt.mpr below)
  | false =>
    have whole : (Decimal.finite false units (-column.scale)).value * 10 ^ column.scale = units := by
      simp [Decimal.value]
    rw [whole] at fits
    exact column.holds_units (by exact_mod_cast fits)

end Numeric
end Sql

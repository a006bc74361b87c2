import Mathlib.Data.Rat.Floor
import Mathlib.Algebra.Order.Field.Rat
import Mathlib.Algebra.Order.Field.Power
import Mathlib.Tactic.Linarith
import Mathlib.Tactic.Positivity
import Mathlib.Tactic.NormNum
import LedgerLens.Library.Rounding

/-- A decimal floating-point number: a sign, a coefficient and a power of ten, or a special value. -/
inductive Decimal where
  | finite (negative : Bool) (coefficient : Nat) (exponent : Int)
  | infinity (negative : Bool)
  | nan (signaling : Bool)
  deriving DecidableEq, Repr

namespace Decimal

def isFinite : Decimal → Bool
  | finite .. => true
  | _ => false

/-- The truth value of a number: only a finite zero is false. -/
def truthy : Decimal → Bool
  | finite _ coefficient _ => coefficient ≠ 0
  | _ => true

/-- The exact rational a finite number stands for; special values have none and read as zero. -/
def value : Decimal → ℚ
  | finite negative coefficient exponent => (if negative then -1 else 1) * coefficient * 10 ^ exponent
  | _ => 0

/-- Numeric equality: the spelling of a number plays no part and a NaN equals nothing. -/
def numEq : Decimal → Decimal → Bool
  | finite n c e, finite n' c' e' => (finite n c e).value = (finite n' c' e').value
  | infinity n, infinity n' => n = n'
  | _, _ => false

theorem numEq_iff_value {x y : Decimal} (left : x.isFinite) (right : y.isFinite) :
    x.numEq y ↔ x.value = y.value := by
  cases x <;> cases y <;> simp_all [isFinite, numEq]

/-- `n / d` to the nearest integer, ties to even. -/
def divHalfEven (n d : Nat) : Nat :=
  if 2 * (n % d) < d then n / d
  else if d < 2 * (n % d) then n / d + 1
  else n / d + n / d % 2

theorem divHalfEven_of_dvd {n d : Nat} (positive : 0 < d) (exact : d ∣ n) : divHalfEven n d = n / d := by
  unfold divHalfEven
  rw [Nat.mod_eq_zero_of_dvd exact, if_pos (by omega)]

/-- The coefficient of `coefficient · 10 ^ exponent` rewritten at another exponent. -/
def rescale (coefficient : Nat) (exponent target : Int) : Nat :=
  if target ≤ exponent then coefficient * 10 ^ (exponent - target).toNat
  else divHalfEven coefficient (10 ^ (target - exponent).toNat)

/-- `quantize` under a context of `precision` digits; `none` signals InvalidOperation. -/
def quantize (precision : Nat) : Decimal → Decimal → Option Decimal
  | finite negative coefficient exponent, finite _ _ target =>
    if rescale coefficient exponent target < 10 ^ precision then
      some (finite negative (rescale coefficient exponent target) target)
    else none
  | infinity negative, infinity _ => some (infinity negative)
  | nan false, nan false => some (nan false)
  | nan false, finite .. => some (nan false)
  | nan false, infinity _ => some (nan false)
  | finite .., nan false => some (nan false)
  | infinity _, nan false => some (nan false)
  | _, _ => none

theorem quantize_finite (precision : Nat) (negative n : Bool) (coefficient c : Nat) (exponent target : Int) :
    quantize precision (finite negative coefficient exponent) (finite n c target) =
      if rescale coefficient exponent target < 10 ^ precision then
        some (finite negative (rescale coefficient exponent target) target)
      else none := rfl

/-- A value that is a whole number of quanta is rescaled to that number. -/
theorem rescale_of_value {coefficient units : Nat} {exponent target : Int}
    (same : (coefficient : ℚ) * 10 ^ exponent = units * 10 ^ target) :
    rescale coefficient exponent target = units := by
  have ten : (10 : ℚ) ≠ 0 := by norm_num
  unfold rescale
  split
  · next below =>
    have shift : (10 : ℚ) ^ exponent = 10 ^ (exponent - target).toNat * 10 ^ target := by
      rw [← zpow_natCast, ← zpow_add₀ ten]
      congr 1
      omega
    rw [shift, ← mul_assoc] at same
    exact_mod_cast mul_right_cancel₀ (zpow_ne_zero target ten) same
  · next above =>
    have shift : (10 : ℚ) ^ target = 10 ^ (target - exponent).toNat * 10 ^ exponent := by
      rw [← zpow_natCast, ← zpow_add₀ ten]
      congr 1
      omega
    rw [shift, ← mul_assoc] at same
    have whole : coefficient = units * 10 ^ (target - exponent).toNat := by
      exact_mod_cast mul_right_cancel₀ (zpow_ne_zero exponent ten) same
    have positive : 0 < 10 ^ (target - exponent).toNat := by positivity
    rw [divHalfEven_of_dvd positive ⟨units, by rw [whole]; ring⟩, whole, Nat.mul_div_cancel _ positive]

/-- A number of so many digits behind the point, as `quantize` leaves it. -/
def IsQuantized (precision : Nat) (target : Int) (x : Decimal) : Prop :=
  ∃ negative units, x = finite negative units target ∧ units < 10 ^ precision

theorem isQuantized_of_quantize {precision : Nat} {x result : Decimal} {n : Bool} {c : Nat} {target : Int}
    (quantized : quantize precision x (finite n c target) = some result) (isFinite : x.isFinite) :
    IsQuantized precision target result := by
  cases x with
  | finite negative coefficient exponent =>
    rw [quantize_finite] at quantized
    split at quantized
    · next fits => exact ⟨negative, _, (Option.some.inj quantized).symm, fits⟩
    · cases quantized
  | infinity _ | nan _ => cases isFinite

/-- Any spelling of a quantized value quantizes to that value again. -/
theorem quantize_of_value {precision : Nat} {x y : Decimal} {n : Bool} {c : Nat} {target : Int}
    (quantized : IsQuantized precision target y) (isFinite : x.isFinite) (same : x.value = y.value) :
    ∃ result, quantize precision x (finite n c target) = some result ∧ result.isFinite ∧ result.value = y.value := by
  obtain ⟨negative, units, rfl, fits⟩ := quantized
  cases x with
  | finite sign coefficient exponent =>
    have size : (coefficient : ℚ) * 10 ^ exponent = units * 10 ^ target := by
      have absolute := congrArg abs same
      simp only [value, abs_mul, Nat.abs_cast, abs_zpow, Nat.abs_ofNat] at absolute
      cases sign <;> cases negative <;> simpa using absolute
    have scaled := rescale_of_value size
    refine ⟨finite sign units target, ?_, rfl, ?_⟩
    · rw [quantize_finite, scaled, if_pos fits]
    · rw [← same]
      simp only [value, mul_assoc, size]
  | infinity _ | nan _ => cases isFinite

/-- The text of a number, in scientific notation when its exponent is large. -/
def str : Decimal → String
  | infinity negative => (if negative then "-" else "") ++ "Infinity"
  | nan signaling => if signaling then "sNaN" else "NaN"
  | finite negative coefficient exponent =>
    let digits := (toString coefficient).toList
    let leftDigits : Int := exponent + digits.length
    let dotPlace : Int := if exponent ≤ 0 ∧ -6 < leftDigits then leftDigits else 1
    let (intPart, fracPart) : List Char × List Char :=
      if dotPlace ≤ 0 then (['0'], '.' :: List.replicate (-dotPlace).toNat '0' ++ digits)
      else if digits.length ≤ dotPlace then
        (digits ++ List.replicate (dotPlace - digits.length).toNat '0', [])
      else (digits.take dotPlace.toNat, '.' :: digits.drop dotPlace.toNat)
    let power := leftDigits - dotPlace
    let expPart := if power = 0 then "" else "E" ++ (if 0 < power then "+" else "") ++ toString power
    (if negative then "-" else "") ++ String.ofList (intPart ++ fracPart) ++ expPart

/-- How the results of operations are rounded. -/
structure Context where
  round : ℚ → ℚ

namespace Context

/-- Arithmetic with no precision limit. -/
def exact : Context := ⟨id⟩

/-- Arithmetic that keeps so many significant digits, rounding half to even. -/
def rounded (precision : Nat) : Context := ⟨Rounding.round 10 precision⟩

def add (ctx : Context) (x y : ℚ) : ℚ := ctx.round (x + y)
def sub (ctx : Context) (x y : ℚ) : ℚ := ctx.round (x - y)
def mul (ctx : Context) (x y : ℚ) : ℚ := ctx.round (x * y)
def div (ctx : Context) (x y : ℚ) : ℚ := ctx.round (x / y)
def neg (ctx : Context) (x : ℚ) : ℚ := ctx.round (-x)

/-- The sum of a sequence, accumulated from zero. -/
def sum (ctx : Context) (xs : List ℚ) : ℚ := xs.foldl ctx.add 0

@[simp] theorem exact_add (x y : ℚ) : exact.add x y = x + y := rfl
@[simp] theorem exact_sub (x y : ℚ) : exact.sub x y = x - y := rfl
@[simp] theorem exact_mul (x y : ℚ) : exact.mul x y = x * y := rfl
@[simp] theorem exact_div (x y : ℚ) : exact.div x y = x / y := rfl
@[simp] theorem exact_neg (x : ℚ) : exact.neg x = -x := rfl

@[simp] theorem exact_sum (xs : List ℚ) : exact.sum xs = xs.sum := by
  have accumulated : ∀ start : ℚ, xs.foldl exact.add start = start + xs.sum := by
    induction xs with
    | nil => simp
    | cons x xs ih => intro start; simp [ih, add_assoc]
  rw [sum, accumulated, zero_add]

end Context
end Decimal

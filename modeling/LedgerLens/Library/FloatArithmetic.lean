import Mathlib.Data.Rat.Floor

/-- The floating-point operations a program relies on, with no law assumed of them. -/
class FloatArithmetic (F : Type) where
  /-- The nearest floating-point number. -/
  ofRat : ℚ → F
  add : F → F → F
  sub : F → F → F
  mul : F → F → F
  div : F → F → F
  lt : F → F → Bool
  le : F → F → Bool
  eq : F → F → Bool
  sqrt : F → F
  mean : List F → F
  /-- The sample standard deviation of at least two numbers. -/
  stdev : List F → F
  /-- The format `.1%`. -/
  percent : F → String
  /-- The format `.2f`. -/
  fixed : F → String

namespace FloatArithmetic
variable {F : Type} [FloatArithmetic F]

/-- `max` of two numbers; the first is kept unless the second is greater. -/
def max (x y : F) : F := if lt x y then y else x

/-- `min` of two numbers; the first is kept unless the second is smaller. -/
def min (x y : F) : F := if lt y x then y else x

/-- A square root to twelve decimal places. -/
def rationalSqrt (x : ℚ) : ℚ := Nat.sqrt (x * 10 ^ 24).floor.toNat / 10 ^ 12

/-- A decimal rendering with the given number of places. -/
def rationalText (places : Nat) (x : ℚ) : String :=
  let scaled := (|x| * 10 ^ places + 1 / 2).floor.toNat
  let digits := toString (scaled % 10 ^ places)
  (if x < 0 then "-" else "") ++ toString (scaled / 10 ^ places) ++ "." ++
    String.ofList (List.replicate (places - digits.length) '0') ++ digits

/-- Rational numbers in the place of the floating-point ones. -/
@[reducible] def rational : FloatArithmetic ℚ where
  ofRat x := x
  add x y := x + y
  sub x y := x - y
  mul x y := x * y
  div x y := x / y
  lt x y := x < y
  le x y := x ≤ y
  eq x y := x = y
  sqrt := rationalSqrt
  mean xs := xs.sum / xs.length
  stdev xs :=
    let average := xs.sum / xs.length
    rationalSqrt ((xs.map fun x => (x - average) ^ 2).sum / (xs.length - 1))
  percent x := rationalText 1 (x * 100) ++ "%"
  fixed x := rationalText 2 x

end FloatArithmetic

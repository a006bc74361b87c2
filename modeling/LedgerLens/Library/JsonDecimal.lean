import LedgerLens.Library.DecimalText
import LedgerLens.Library.Json

/-- Floating-point numbers with the decimal that each of them is exactly. -/
class FloatDecimal (F : Type) extends FloatText F where
  toDecimal : F → Decimal

/-- For documents without floating-point numbers: all of them are read as zero. -/
@[reducible] def FloatDecimal.zero : FloatDecimal ℚ where
  parse _ := 0
  repr _ := "0.0"
  toDecimal _ := .finite false 0 0

namespace Json
variable {F : Type} [FloatDecimal F]

/-- A value that is an integer; truth values are. -/
def toInt? : Json F → Option Int
  | .int n => some n
  | .bool b => some b.toInt
  | _ => none

/-- Equality with an integer, whatever the type of the number. -/
def eqInt (value : Json F) (n : Int) : Bool :=
  match value with
  | .float x => (FloatDecimal.toDecimal x).numEq (.finite (n < 0) n.natAbs 0)
  | value => toInt? value = some n

def eqText (value : Json F) (s : String) : Bool :=
  match value with
  | .string t => t = .text s
  | _ => false

end Json

namespace Decimal

/-- What the constructor raises. -/
inductive ConversionError where
  | typeError
  | valueError
  | overflowError
  | invalidOperation
  deriving DecidableEq

variable {F : Type} [FloatDecimal F]

/-- An integer of 64 bits. -/
def longOf (value : Json F) : Except ConversionError Int :=
  match Json.toInt? value with
  | none => .error .valueError
  | some n => if -2 ^ 63 ≤ n ∧ n < 2 ^ 63 then .ok n else .error .overflowError

def digitOf (value : Json F) : Except ConversionError Nat := do
  let n ← longOf value
  if 0 ≤ n ∧ n ≤ 9 then return n.toNat else .error .valueError

def orInvalid : Option Decimal → Except ConversionError Decimal
  | some x => .ok x
  | none => .error .invalidOperation

/-- The third element of a sequence: an exponent or the letter of a special value. -/
inductive Ending where
  | infinity
  | nan (signaling : Bool)
  | exponent (n : Int)

def endingOf (value : Json F) : Except ConversionError Ending :=
  match value with
  | .string s =>
    if s = .text "F" then .ok .infinity
    else if s = .text "n" then .ok (.nan false)
    else if s = .text "N" then .ok (.nan true)
    else .error .valueError
  | value => do
    let n ← longOf value
    return .exponent n

/-- A sign, the digits of a coefficient and an exponent. -/
def ofSequence (elements : List (Json F)) : Except ConversionError Decimal :=
  match elements with
  | [sign, coefficient, exponent] => do
    let sign ← longOf sign
    if sign ≠ 0 ∧ sign ≠ 1 then .error .valueError
    else do
      let ending ← endingOf exponent
      match coefficient with
      | .array elements => do
        let digits ← elements.mapM digitOf
        match ending with
        | .infinity => return infinity (sign = 1)
        | .nan signaling => return nan signaling
        | .exponent n => orInvalid (bounded (sign = 1) (digits.foldl (fun total digit => 10 * total + digit) 0) n)
      | _ => .error .valueError
  | _ => .error .valueError

variable [DigitDatabase]

/-- The constructor applied to a decoded value. -/
def ofJson (value : Json F) : Except ConversionError Decimal :=
  match value with
  | .int n => .ok (finite (n < 0) n.natAbs 0)
  | .bool b => .ok (finite false b.toNat 0)
  | .float x => .ok (FloatDecimal.toDecimal x)
  | .string (.text s) => orInvalid (parse s)
  | .string (.broken _) => .error .invalidOperation
  | .array elements => ofSequence elements
  | .null | .object _ => .error .typeError

end Decimal

import LedgerLens.Library.Decimal
import LedgerLens.Library.Text

/-- The decimal digits of the scripts beyond ASCII. -/
class DigitDatabase where
  digit : Char → Option Nat
  digit_lt : ∀ c n, digit c = some n → n < 10

/-- A database without digits beyond ASCII. -/
@[reducible] def DigitDatabase.ascii : DigitDatabase where
  digit _ := none
  digit_lt _ _ digit := nomatch digit

namespace Decimal

/-- The most that the adjusted exponent of a number can be, and the least of its exponent. -/
def maxEmax : Int := 999999999999999999
def minEtiny : Int := -1999999999999999997

/-- The number can be held at all. -/
def WithinLimits (coefficient : Nat) (exponent : Int) : Prop :=
  exponent + (toString coefficient).length - 1 ≤ maxEmax ∧ minEtiny ≤ exponent

instance (coefficient : Nat) (exponent : Int) : Decidable (WithinLimits coefficient exponent) :=
  inferInstanceAs (Decidable (_ ∧ _))

/-- The number is one that can be made. -/
def Exists : Decimal → Prop
  | finite _ coefficient exponent => WithinLimits coefficient exponent
  | _ => True

section Parsing

def asciiDigit [DigitDatabase] (c : Char) : Option Char :=
  if 0 < c.toNat ∧ c.toNat < 128 then some c
  else if Text.isSpace c then some ' '
  else (DigitDatabase.digit c).map Nat.digitChar

/-- The characters of a number once the space around it and the underscores in it are gone. -/
def numericAscii [DigitDatabase] (s : String) : Option (List Char) :=
  ((Text.strip s).toList.filter fun c => c ≠ '_').mapM asciiDigit

def scanSign : List Char → Bool × List Char
  | '-' :: rest => (true, rest)
  | '+' :: rest => (false, rest)
  | rest => (false, rest)

/-- Infinities and NaNs, from lower-case characters; the payload of a NaN is not kept. -/
def scanSpecial (negative : Bool) (word : List Char) : Option Decimal :=
  match word with
  | 's' :: 'n' :: 'a' :: 'n' :: payload => if payload.all Char.isDigit then some (nan true) else none
  | 'n' :: 'a' :: 'n' :: payload => if payload.all Char.isDigit then some (nan false) else none
  | word => if word = "inf".toList ∨ word = "infinity".toList then some (infinity negative) else none

def scanFraction : List Char → List Char × List Char
  | '.' :: rest => (rest.takeWhile Char.isDigit, rest.dropWhile Char.isDigit)
  | rest => ([], rest)

def scanPower (rest : List Char) : Option Int :=
  let (negative, digits) := scanSign rest
  if digits ≠ [] ∧ digits.all Char.isDigit then
    let power : Int := Nat.ofDigitChars 10 digits 0
    some (if negative then -power else power)
  else none

def scanExponent : List Char → Option Int
  | [] => some 0
  | 'e' :: rest => scanPower rest
  | 'E' :: rest => scanPower rest
  | _ => none

/-- A number within the limits; beyond them InvalidOperation is signalled. -/
def bounded (negative : Bool) (coefficient : Nat) (exponent : Int) : Option Decimal :=
  if WithinLimits coefficient exponent then some (finite negative coefficient exponent) else none

def scanFinite (negative : Bool) (input : List Char) : Option Decimal :=
  let whole := input.takeWhile Char.isDigit
  let (fraction, rest) := scanFraction (input.dropWhile Char.isDigit)
  match scanExponent rest with
  | none => none
  | some exponent =>
    if whole ++ fraction = [] then none
    else bounded negative (Nat.ofDigitChars 10 (whole ++ fraction) 0) (exponent - fraction.length)

def scanNumber (input : List Char) : Option Decimal :=
  let (negative, rest) := scanSign input
  match scanSpecial negative (rest.map Char.toLower) with
  | some special => some special
  | none => scanFinite negative rest

/-- The constructor applied to a text; `none` stands for InvalidOperation. -/
def parse [DigitDatabase] (s : String) : Option Decimal := (numericAscii s).bind scanNumber

end Parsing

section RoundTrip

/-- The characters that the text of a finite number is made of. -/
def numericChars : List Char := "0123456789.-+E".toList

theorem mem_of_isDigit {c : Char} (digit : c.isDigit) : c ∈ "0123456789".toList := by
  have listed : ∀ k < 10, Char.ofNat (48 + k) ∈ "0123456789".toList := by decide
  have range : 48 ≤ c.toNat ∧ c.toNat ≤ 57 := Char.isDigit_iff_toNat.mp digit
  have place : 48 + (c.toNat - 48) = c.toNat := by omega
  have own := listed (c.toNat - 48) (by omega)
  rwa [place, Char.ofNat_toNat] at own

theorem numeric_of_isDigit {c : Char} (digit : c.isDigit) : c ∈ numericChars :=
  List.mem_append_left ".-+E".toList (mem_of_isDigit digit)

theorem numeric_ascii {c : Char} (numeric : c ∈ numericChars) :
    0 < c.toNat ∧ c.toNat < 128 ∧ Text.isSpace c = false ∧ c ≠ '_' := by
  have every : numericChars.all fun c => 0 < c.toNat ∧ c.toNat < 128 ∧ Text.isSpace c = false ∧ c ≠ '_' := by decide
  exact of_decide_eq_true (List.all_eq_true.mp every c numeric)

theorem takeWhile_digits {digits rest : List Char} (all : ∀ c ∈ digits, c.isDigit)
    (ends : ∀ c ∈ rest.head?, ¬ c.isDigit) :
    (digits ++ rest).takeWhile Char.isDigit = digits ∧ (digits ++ rest).dropWhile Char.isDigit = rest := by
  have stop : rest.takeWhile Char.isDigit = [] ∧ rest.dropWhile Char.isDigit = rest := by
    cases rest with
    | nil => exact ⟨rfl, rfl⟩
    | cons c rest =>
      have notDigit := ends c rfl
      exact ⟨List.takeWhile_cons_of_neg notDigit, List.dropWhile_cons_of_neg notDigit⟩
  rw [List.takeWhile_append_of_pos all, List.dropWhile_append_of_pos all, stop.1, stop.2, List.append_nil]
  exact ⟨rfl, rfl⟩

/-- The point and the digits behind it, where there are any. -/
def fractionText (fraction : List Char) : List Char := if fraction = [] then [] else '.' :: fraction

/-- A number read from its parts. -/
theorem scanFinite_parts {whole fraction exponentText : List Char} {power : Int} (negative : Bool)
    (wholeDigits : ∀ c ∈ whole, c.isDigit) (fractionDigits : ∀ c ∈ fraction, c.isDigit) (nonempty : whole ≠ [])
    (scanned : scanExponent exponentText = some power)
    (starts : ∀ c ∈ exponentText.head?, ¬ c.isDigit ∧ c ≠ '.') :
    scanFinite negative (whole ++ (fractionText fraction ++ exponentText)) =
      bounded negative (Nat.ofDigitChars 10 (whole ++ fraction) 0) (power - fraction.length) := by
  have ends : ∀ c ∈ (fractionText fraction ++ exponentText).head?, ¬ c.isDigit := by
    unfold fractionText
    split
    · exact fun c first => (starts c first).1
    · rintro _ ⟨⟩
      decide
  have behind : scanFraction (fractionText fraction ++ exponentText) = (fraction, exponentText) := by
    unfold fractionText
    split
    · next empty =>
      rw [empty, List.nil_append]
      cases exponentText with
      | nil => rfl
      | cons c rest =>
        unfold scanFraction
        split
        · next point => exact absurd (List.cons_eq_cons.mp point).1 (starts c rfl).2
        · rfl
    · obtain ⟨digits, rest⟩ := takeWhile_digits fractionDigits fun c first => (starts c first).1
      rw [List.cons_append, scanFraction, digits, rest]
  obtain ⟨digits, rest⟩ := takeWhile_digits wholeDigits ends
  unfold scanFinite
  simp only [digits, rest, behind, scanned]
  rw [if_neg (by simp [nonempty])]

/-- How the exponent of a text is written. -/
def exponentText (power : Int) : List Char :=
  if power = 0 then [] else 'E' :: ((if 0 < power then ['+'] else []) ++ (toString power).toList)

theorem scanPower_signed (sign : List Char) (negative : Bool) (n : Nat)
    (signed : scanSign (sign ++ (toString n).toList) = (negative, (toString n).toList)) :
    scanPower (sign ++ (toString n).toList) = some (if negative then -(n : Int) else n) := by
  have all : (toString n).toList.all Char.isDigit := List.all_eq_true.mpr fun c => Text.toString_nat_digits
  unfold scanPower
  simp only [signed]
  rw [if_pos ⟨Text.toString_nat_ne_nil n, all⟩, Text.ofDigitChars_toString]

theorem scanExponent_text (power : Int) : scanExponent (exponentText power) = some power := by
  unfold exponentText
  split
  · next zero => rw [zero]; rfl
  · cases power with
    | ofNat n =>
      have positive : 0 < Int.ofNat n := by
        simp only [Int.ofNat_eq_natCast] at *
        omega
      rw [if_pos positive]
      exact scanPower_signed ['+'] false n rfl
    | negSucc n =>
      rw [if_neg (by omega), Text.toString_negSucc, String.toList_append]
      exact scanPower_signed ['-'] true (n + 1) rfl

theorem exponentText_starts (power : Int) : ∀ c ∈ (exponentText power).head?, ¬ c.isDigit ∧ c ≠ '.' := by
  unfold exponentText
  split
  · simp
  · rintro _ ⟨⟩
    decide

/-- The digits of a coefficient around a point, which may stand before them. -/
theorem digits_around_point {digits : List Char} {place : Int} (all : ∀ c ∈ digits, c.isDigit) (nonempty : digits ≠ [])
    (least : place ≤ digits.length) :
    ∃ whole fraction, (if place ≤ 0 then (['0'], '.' :: List.replicate (-place).toNat '0' ++ digits)
        else if digits.length ≤ place then (digits ++ List.replicate (place - digits.length).toNat '0', [])
        else (digits.take place.toNat, '.' :: digits.drop place.toNat)) = (whole, fractionText fraction) ∧
      whole ≠ [] ∧ (∀ c ∈ whole, c.isDigit) ∧ (∀ c ∈ fraction, c.isDigit) ∧
      Nat.ofDigitChars 10 (whole ++ fraction) 0 = Nat.ofDigitChars 10 digits 0 ∧
      (fraction.length : Int) = digits.length - place := by
  have length := List.length_pos_iff.mpr nonempty
  by_cases before : place ≤ 0
  · refine ⟨['0'], List.replicate (-place).toNat '0' ++ digits, ?_, by decide, List.forall_mem_singleton.mpr rfl, ?_,
      ?_, ?_⟩
    · rw [if_pos before, fractionText, if_neg (by simp [nonempty])]
      rfl
    · refine List.forall_mem_append.mpr ⟨fun c member => ?_, all⟩
      rw [List.eq_of_mem_replicate member]
      rfl
    · have zeros : '0' :: List.replicate (-place).toNat '0' = List.replicate ((-place).toNat + 1) '0' := rfl
      rw [List.singleton_append, ← List.cons_append, zeros, Nat.ofDigitChars_append, Nat.ofDigitChars_replicate_zero]
      rfl
    · rw [List.length_append, List.length_replicate]
      omega
  · by_cases behind : digits.length ≤ place
    · refine ⟨digits, [], ?_, nonempty, all, by simp, by simp, by simp; omega⟩
      have nothingMissing : (place - digits.length).toNat = 0 := by omega
      rw [if_neg before, if_pos behind, nothingMissing, List.replicate_zero, List.append_nil]
      rfl
    · refine ⟨digits.take place.toNat, digits.drop place.toNat, ?_, ?_,
        fun c member => all c (List.mem_of_mem_take member),
        fun c member => all c (List.mem_of_mem_drop member), by rw [List.take_append_drop], ?_⟩
      · rw [if_neg before, if_neg behind, fractionText, if_neg]
        simp only [List.drop_eq_nil_iff]
        omega
      · rw [Ne, List.take_eq_nil_iff]
        simp only [nonempty, or_false]
        omega
      · rw [List.length_drop]
        omega

/-- The text of a finite number, part by part. -/
theorem str_parts (negative : Bool) (coefficient : Nat) (exponent : Int) :
    ∃ whole fraction power, whole ≠ [] ∧ (∀ c ∈ whole, c.isDigit) ∧ (∀ c ∈ fraction, c.isDigit) ∧
      Nat.ofDigitChars 10 (whole ++ fraction) 0 = coefficient ∧ power - fraction.length = exponent ∧
      (str (finite negative coefficient exponent)).toList =
        (if negative then ['-'] else []) ++ (whole ++ (fractionText fraction ++ exponentText power)) := by
  have nonempty := Text.toString_nat_ne_nil coefficient
  have length := List.length_pos_iff.mpr nonempty
  have placed : ∃ place : Int, place = (if exponent ≤ 0 ∧ -6 < exponent + (toString coefficient).toList.length then
      exponent + (toString coefficient).toList.length else 1) ∧ place ≤ (toString coefficient).toList.length := by
    refine ⟨_, rfl, ?_⟩
    split <;> omega
  obtain ⟨place, definition, least⟩ := placed
  obtain ⟨whole, fraction, around, someDigits, wholeDigits, fractionDigits, value, count⟩ :=
    digits_around_point (fun c => Text.toString_nat_digits) nonempty least
  refine ⟨whole, fraction, exponent + (toString coefficient).toList.length - place, someDigits, wholeDigits,
    fractionDigits, value.trans (Text.ofDigitChars_toString coefficient), by omega, ?_⟩
  simp only [str, ← definition, around, String.toList_append, String.toList_ofList, exponentText, List.append_assoc]
  congr 1
  · cases negative <;> rfl
  · congr 2
    split
    · rfl
    · split <;> simp only [String.toList_append] <;> rfl

theorem numericAscii_numeric [DigitDatabase] {s : String} (numeric : ∀ c ∈ s.toList, c ∈ numericChars) :
    numericAscii s = some s.toList := by
  have underscores : (s.toList.filter fun c => c ≠ '_') = s.toList :=
    List.filter_eq_self.mpr fun c member => decide_eq_true (numeric_ascii (numeric c member)).2.2.2
  have same : ∀ c ∈ s.toList, asciiDigit c = some c := by
    intro c member
    obtain ⟨positive, ascii, _⟩ := numeric_ascii (numeric c member)
    exact if_pos ⟨positive, ascii⟩
  rw [numericAscii, Text.strip_visible fun c member => (numeric_ascii (numeric c member)).2.2.1, underscores]
  generalize s.toList = chars at same
  induction chars with
  | nil => rfl
  | cons c chars ih =>
    obtain ⟨head, tail⟩ := List.forall_mem_cons.mp same
    rw [List.mapM_cons, head, ih tail]
    rfl

/-- A number that starts with a digit behind its sign is not a special value. -/
theorem scanNumber_finite {c : Char} (digit : c.isDigit) (rest : List Char) (negative : Bool) :
    scanNumber ((if negative then ['-'] else []) ++ c :: rest) = scanFinite negative (c :: rest) := by
  have listed : c = '0' ∨ c = '1' ∨ c = '2' ∨ c = '3' ∨ c = '4' ∨ c = '5' ∨ c = '6' ∨ c = '7' ∨ c = '8' ∨ c = '9' := by
    simpa using mem_of_isDigit digit
  have unsigned : scanSign (c :: rest) = (false, c :: rest) ∧
      scanSpecial negative ((c :: rest).map Char.toLower) = none := by
    rcases listed with rfl | rfl | rfl | rfl | rfl | rfl | rfl | rfl | rfl | rfl <;> exact ⟨rfl, rfl⟩
  have signed : scanSign ((if negative then ['-'] else []) ++ c :: rest) = (negative, c :: rest) := by
    cases negative with
    | true => rfl
    | false => exact unsigned.1
  unfold scanNumber
  simp only [signed, unsigned.2]

theorem str_numeric (negative : Bool) (coefficient : Nat) (exponent : Int) :
    ∀ c ∈ (str (finite negative coefficient exponent)).toList, c ∈ numericChars := by
  obtain ⟨whole, fraction, power, _, wholeDigits, fractionDigits, _, _, text⟩ := str_parts negative coefficient exponent
  rw [text]
  simp only [List.forall_mem_append]
  refine ⟨?_, fun c member => numeric_of_isDigit (wholeDigits c member), ?_, ?_⟩
  · cases negative with
    | true => exact List.forall_mem_singleton.mpr (by decide)
    | false => exact List.forall_mem_nil _
  · unfold fractionText
    split
    · simp
    · exact List.forall_mem_cons.mpr ⟨by decide, fun c member => numeric_of_isDigit (fractionDigits c member)⟩
  · unfold exponentText
    split
    · simp
    · refine List.forall_mem_cons.mpr ⟨by decide, List.forall_mem_append.mpr ⟨?_, fun c member => ?_⟩⟩
      · split
        · refine List.forall_mem_singleton.mpr ?_
          decide
        · exact List.forall_mem_nil _
      · rcases Text.toString_int_chars member with rfl | digit
        · decide
        · exact numeric_of_isDigit digit

/-- The text of a finite number is read as the very same number. -/
theorem parse_str [DigitDatabase] (negative : Bool) (coefficient : Nat) (exponent : Int) :
    parse (str (finite negative coefficient exponent)) = bounded negative coefficient exponent := by
  have numeric := numericAscii_numeric (str_numeric negative coefficient exponent)
  obtain ⟨whole, fraction, power, nonempty, wholeDigits, fractionDigits, value, count, text⟩ :=
    str_parts negative coefficient exponent
  have scanned := scanFinite_parts negative wholeDigits fractionDigits nonempty
    (scanExponent_text power) (exponentText_starts power)
  obtain ⟨c, rest, rfl⟩ := List.exists_cons_of_ne_nil nonempty
  rw [parse, numeric, Option.bind_some, text, List.cons_append, scanNumber_finite (wholeDigits c List.mem_cons_self),
    ← List.cons_append, scanned, value, count]

theorem parse_str_of_exists [DigitDatabase] {x : Decimal} (isFinite : x.isFinite) (made : x.Exists) :
    parse x.str = some x := by
  cases x with
  | finite negative coefficient exponent => exact (parse_str negative coefficient exponent).trans (if_pos made)
  | infinity _ | nan _ => cases isFinite

end RoundTrip
end Decimal

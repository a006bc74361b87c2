import Mathlib.Data.List.Lex
import Mathlib.Data.String.Basic
import LedgerLens.Library.Dict
import LedgerLens.Library.Hex
import LedgerLens.Library.StableSort
import LedgerLens.Library.Text

/-- How floating-point numbers are read and written. -/
class FloatText (F : Type) where
  parse : String → F
  repr : F → String

namespace Json

/-- A string value: a text, or code points among which a surrogate stands without its pair. -/
inductive Str where
  | text (s : String)
  | broken (codePoints : List Nat)
  deriving DecidableEq

namespace Str

def codePoints : Str → List Nat
  | text s => s.toList.map Char.toNat
  | broken codePoints => codePoints

def ofCodePoints (codePoints : List Nat) : Str :=
  if codePoints.all fun n => n.isValidChar then text (String.ofList (codePoints.map Char.ofNat))
  else broken codePoints

@[simp] theorem ofCodePoints_text (s : String) : ofCodePoints (text s).codePoints = text s := by
  have valid : ((text s).codePoints.all fun n => n.isValidChar) = true := by
    simp only [codePoints, List.all_map, List.all_eq_true]
    exact fun c _ => decide_eq_true c.valid
  have same : (s.toList.map Char.toNat).map Char.ofNat = s.toList := by
    rw [List.map_map]
    exact (List.map_congr_left fun c _ => Char.ofNat_toNat c).trans (List.map_id _)
  rw [ofCodePoints, if_pos valid, codePoints, same, String.ofList_toList]

end Str
end Json

inductive Json (F : Type) where
  | null
  | bool (b : Bool)
  | int (n : Int)
  | float (x : F)
  | string (s : Json.Str)
  | array (elements : List (Json F))
  | object (members : List (Json.Str × Json F))

namespace Json
variable {F : Type}

/-- A text as a value. -/
abbrev text (s : String) : Json F := .string (.text s)

section Encoding

def hex4 (n : Nat) : List Char :=
  [(n / 4096).digitChar, (n / 256 % 16).digitChar, (n / 16 % 16).digitChar, (n % 16).digitChar]

/-- A code point between quotation marks, in ASCII. -/
def encodeCodePoint (n : Nat) : List Char :=
  if n = 34 then ['\\', '"']
  else if n = 92 then ['\\', '\\']
  else if n = 10 then ['\\', 'n']
  else if n = 13 then ['\\', 'r']
  else if n = 9 then ['\\', 't']
  else if n = 12 then ['\\', 'f']
  else if n = 8 then ['\\', 'b']
  else if 32 ≤ n ∧ n ≤ 126 then [Char.ofNat n]
  else if n < 0x10000 then '\\' :: 'u' :: hex4 n
  else '\\' :: 'u' :: hex4 (0xd800 + (n - 0x10000) / 1024) ++
    '\\' :: 'u' :: hex4 (0xdc00 + (n - 0x10000) % 1024)

def encodeString (s : Str) : List Char := '"' :: s.codePoints.flatMap encodeCodePoint ++ ['"']

def commaJoin : List (List Char) → List Char
  | [] => []
  | [x] => x
  | x :: y :: rest => x ++ ',' :: commaJoin (y :: rest)

variable [FloatText F]

mutual
/-- The text of a value, without spaces and with the keys of an object in order. -/
def encode : Json F → List Char
  | .null => "null".toList
  | .bool true => "true".toList
  | .bool false => "false".toList
  | .int n => (toString n).toList
  | .float x => (FloatText.repr x).toList
  | .string s => encodeString s
  | .array elements => '[' :: commaJoin (encodeElements elements) ++ [']']
  | .object members =>
    '{' :: commaJoin ((StableSort.sortOn (fun member => member.1.codePoints) (encodeMembers members)).map
      fun member => encodeString member.1 ++ ':' :: member.2) ++ ['}']

def encodeElements : List (Json F) → List (List Char)
  | [] => []
  | element :: rest => encode element :: encodeElements rest

def encodeMembers : List (Str × Json F) → List (Str × List Char)
  | [] => []
  | (key, value) :: rest => (key, encode value) :: encodeMembers rest
end

/-- `json.dumps` with compact separators and sorted keys. -/
def dumps (value : Json F) : String := String.ofList (encode value)

end Encoding

section Decoding

def isSpace (c : Char) : Bool := c = ' ' || c = '\t' || c = '\n' || c = '\r'

def skipSpace (input : List Char) : List Char := input.dropWhile isSpace

/-- What stands for one code point or half of one: the escape of a number is kept apart until the
surrogates among them are paired. -/
inductive StringUnit where
  | plain (n : Nat)
  | escaped (n : Nat)

def hex4Value (a b c d : Char) : Option Nat := do
  let a ← Hex.value a
  let b ← Hex.value b
  let c ← Hex.value c
  let d ← Hex.value d
  return ((a * 16 + b) * 16 + c) * 16 + d

def simpleEscape (c : Char) : Option Nat :=
  if c = '"' then some 34
  else if c = '\\' then some 92
  else if c = '/' then some 47
  else if c = 'b' then some 8
  else if c = 'f' then some 12
  else if c = 'n' then some 10
  else if c = 'r' then some 13
  else if c = 't' then some 9
  else none

/-- The units of a string up to its closing quotation mark, and what follows it. -/
def scanUnits : List Char → Option (List StringUnit × List Char)
  | [] => none
  | '"' :: rest => some ([], rest)
  | '\\' :: 'u' :: a :: b :: c :: d :: rest => do
    let n ← hex4Value a b c d
    let (units, rest) ← scanUnits rest
    return (.escaped n :: units, rest)
  | '\\' :: c :: rest => do
    let n ← simpleEscape c
    let (units, rest) ← scanUnits rest
    return (.plain n :: units, rest)
  | c :: rest =>
    if c.toNat < 32 then none
    else do
      let (units, rest) ← scanUnits rest
      return (.plain c.toNat :: units, rest)

def isHighSurrogate (n : Nat) : Bool := 0xd800 ≤ n && n ≤ 0xdbff
def isLowSurrogate (n : Nat) : Bool := 0xdc00 ≤ n && n ≤ 0xdfff

/-- A high surrogate and the low one escaped right behind it make one code point. -/
def pairSurrogates : List StringUnit → List Nat
  | [] => []
  | .plain n :: rest => n :: pairSurrogates rest
  | .escaped high :: .escaped low :: rest =>
    if isHighSurrogate high && isLowSurrogate low then
      (0x10000 + ((high - 0xd800) * 1024 + (low - 0xdc00))) :: pairSurrogates rest
    else high :: pairSurrogates (.escaped low :: rest)
  | .escaped n :: rest => n :: pairSurrogates rest

/-- A string from behind its opening quotation mark. -/
def scanString (input : List Char) : Option (Str × List Char) :=
  (scanUnits input).map fun scanned => (.ofCodePoints (pairSurrogates scanned.1), scanned.2)

def isDigit (c : Char) : Bool := '0' ≤ c && c ≤ '9'

/-- A point with digits behind it. -/
def scanFraction : List Char → List Char × List Char
  | '.' :: d :: rest =>
    if isDigit d then ('.' :: d :: rest.takeWhile isDigit, rest.dropWhile isDigit) else ([], '.' :: d :: rest)
  | input => ([], input)

/-- The digits of an exponent behind its sign. -/
def scanExponentDigits (e : List Char) (input rest : List Char) : List Char × List Char :=
  match rest with
  | d :: rest => if isDigit d then (e ++ d :: rest.takeWhile isDigit, rest.dropWhile isDigit) else ([], input)
  | [] => ([], input)

def scanExponent (input : List Char) : List Char × List Char :=
  match input with
  | 'e' :: '+' :: rest => scanExponentDigits ['e', '+'] input rest
  | 'e' :: '-' :: rest => scanExponentDigits ['e', '-'] input rest
  | 'e' :: rest => scanExponentDigits ['e'] input rest
  | 'E' :: '+' :: rest => scanExponentDigits ['e', '+'] input rest
  | 'E' :: '-' :: rest => scanExponentDigits ['e', '-'] input rest
  | 'E' :: rest => scanExponentDigits ['e'] input rest
  | input => ([], input)

/-- The most digits an integer is read from. -/
def maxIntDigits : Nat := 4300

variable [FloatText F]

/-- A number once its sign and whole digits are known. -/
def finishNumber (negative : Bool) (digits rest : List Char) : Option (Json F × List Char) :=
  let (fraction, rest) := scanFraction rest
  let (exponent, rest) := scanExponent rest
  if fraction = [] ∧ exponent = [] then
    if digits.length ≤ maxIntDigits then
      let magnitude : Int := Nat.ofDigitChars 10 digits 0
      some (.int (if negative then -magnitude else magnitude), rest)
    else none
  else
    let text := (if negative then ['-'] else []) ++ digits ++ fraction ++ exponent
    some (.float (FloatText.parse (String.ofList text)), rest)

def scanMagnitude (negative : Bool) : List Char → Option (Json F × List Char)
  | '0' :: rest => finishNumber negative ['0'] rest
  | d :: rest =>
    if isDigit d then finishNumber negative (d :: rest.takeWhile isDigit) (rest.dropWhile isDigit) else none
  | [] => none

/-- A constant or a number. -/
def scanAtom : List Char → Option (Json F × List Char)
  | 'n' :: 'u' :: 'l' :: 'l' :: rest => some (.null, rest)
  | 't' :: 'r' :: 'u' :: 'e' :: rest => some (.bool true, rest)
  | 'f' :: 'a' :: 'l' :: 's' :: 'e' :: rest => some (.bool false, rest)
  | 'N' :: 'a' :: 'N' :: rest => some (.float (FloatText.parse "NaN"), rest)
  | 'I' :: 'n' :: 'f' :: 'i' :: 'n' :: 'i' :: 't' :: 'y' :: rest => some (.float (FloatText.parse "Infinity"), rest)
  | '-' :: 'I' :: 'n' :: 'f' :: 'i' :: 'n' :: 'i' :: 't' :: 'y' :: rest =>
    some (.float (FloatText.parse "-Infinity"), rest)
  | '-' :: rest => scanMagnitude true rest
  | input => scanMagnitude false input

/-- The members of an object in the order of their first occurrence, each with its last value. -/
def collectMembers (members : List (Str × Json F)) : List (Str × Json F) :=
  members.foldl (fun collected member => Dict.setEntry member.1 member.2 collected) []

mutual
/-- A value from its first character, and what follows it. The fuel bounds the nesting and the length
of what is read. -/
def scanValue : Nat → List Char → Option (Json F × List Char)
  | 0, _ => none
  | fuel + 1, input =>
    match input with
    | '"' :: rest => (scanString rest).map fun scanned => (.string scanned.1, scanned.2)
    | '{' :: rest =>
      match skipSpace rest with
      | '}' :: rest => some (.object [], rest)
      | rest => (scanMembers fuel rest).map fun scanned => (.object (collectMembers scanned.1), scanned.2)
    | '[' :: rest =>
      match skipSpace rest with
      | ']' :: rest => some (.array [], rest)
      | rest => (scanElements fuel rest).map fun scanned => (.array scanned.1, scanned.2)
    | input => scanAtom input

/-- The elements of an array up to its closing bracket. -/
def scanElements : Nat → List Char → Option (List (Json F) × List Char)
  | 0, _ => none
  | fuel + 1, input => do
    let (element, rest) ← scanValue fuel input
    match skipSpace rest with
    | ']' :: rest => return ([element], rest)
    | ',' :: rest => do
      let (elements, rest) ← scanElements fuel (skipSpace rest)
      return (element :: elements, rest)
    | _ => none

/-- The members of an object up to its closing brace. -/
def scanMembers : Nat → List Char → Option (List (Str × Json F) × List Char)
  | 0, _ => none
  | fuel + 1, '"' :: input => do
    let (key, rest) ← scanString input
    match skipSpace rest with
    | ':' :: rest => do
      let (value, rest) ← scanValue fuel (skipSpace rest)
      match skipSpace rest with
      | '}' :: rest => return ([(key, value)], rest)
      | ',' :: rest => do
        let (members, rest) ← scanMembers fuel (skipSpace rest)
        return ((key, value) :: members, rest)
      | _ => none
    | _ => none
  | _ + 1, _ => none
end

/-- `json.loads`; `none` stands for the `ValueError` it raises. -/
def loads (input : String) : Option (Json F) :=
  if input.toList.head? = some (Char.ofNat 0xfeff) then none
  else do
    let (value, rest) ← scanValue (2 * input.toList.length + 2) (skipSpace input.toList)
    if skipSpace rest = [] then some value else none

/-- The value under a key of an object. -/
def get? (key : String) (members : List (Str × Json F)) : Option (Json F) :=
  (members.find? fun member => member.1 = .text key).map Prod.snd

end Decoding

section RoundTrip

theorem hex4Value_hex4 {n : Nat} (small : n < 0x10000) {a b c d : Char} (digits : hex4 n = [a, b, c, d]) :
    hex4Value a b c d = some n := by
  simp only [hex4, List.cons.injEq, and_true] at digits
  obtain ⟨rfl, rfl, rfl, rfl⟩ := digits
  simp only [hex4Value, Hex.value_digitChar (show n / 4096 < 16 by omega),
    Hex.value_digitChar (show n / 256 % 16 < 16 by omega), Hex.value_digitChar (show n / 16 % 16 < 16 by omega),
    Hex.value_digitChar (show n % 16 < 16 by omega), Option.bind_eq_bind, Option.bind_some, Option.pure_def]
  congr 1
  omega

/-- The units that the escapes of a code point are read as. -/
def unitsOf (n : Nat) : List StringUnit :=
  if n = 34 ∨ n = 92 ∨ n = 10 ∨ n = 13 ∨ n = 9 ∨ n = 12 ∨ n = 8 ∨ (32 ≤ n ∧ n ≤ 126) then [.plain n]
  else if n < 0x10000 then [.escaped n]
  else [.escaped (0xd800 + (n - 0x10000) / 1024), .escaped (0xdc00 + (n - 0x10000) % 1024)]

theorem scanUnits_escaped {n : Nat} (small : n < 0x10000) (rest : List Char) :
    scanUnits ('\\' :: 'u' :: hex4 n ++ rest) =
      (scanUnits rest).map fun scanned => (.escaped n :: scanned.1, scanned.2) := by
  obtain ⟨a, b, c, d, digits⟩ : ∃ a b c d, hex4 n = [a, b, c, d] := ⟨_, _, _, _, rfl⟩
  rw [digits]
  change scanUnits ('\\' :: 'u' :: a :: b :: c :: d :: rest) = _
  rw [scanUnits, hex4Value_hex4 small digits]
  cases scanUnits rest <;> rfl

theorem scanUnits_simple {c : Char} {n : Nat} (known : simpleEscape c = some n) (rest : List Char) :
    scanUnits ('\\' :: c :: rest) = (scanUnits rest).map fun scanned => (.plain n :: scanned.1, scanned.2) := by
  have notU : c ≠ 'u' := by
    rintro rfl
    cases (show simpleEscape 'u' = none from rfl).symm.trans known
  rw [scanUnits.eq_def]
  split
  · next empty => cases empty
  · next quote => cases quote
  · next escape => exact absurd (List.cons_eq_cons.mp (List.cons_eq_cons.mp escape).2).1 notU
  · next escape =>
    cases escape
    rw [known]
    cases scanUnits rest <;> rfl
  · next other plain =>
    cases plain
    exact (other _ _ rfl rfl).elim

theorem scanUnits_plain {c : Char} (notQuote : c ≠ '"') (notBackslash : c ≠ '\\') (visible : 32 ≤ c.toNat)
    (rest : List Char) :
    scanUnits (c :: rest) = (scanUnits rest).map fun scanned => (.plain c.toNat :: scanned.1, scanned.2) := by
  rw [scanUnits.eq_def]
  split
  · next empty => cases empty
  · next quote => exact absurd (List.cons_eq_cons.mp quote).1 notQuote
  · next escape => exact absurd (List.cons_eq_cons.mp escape).1 notBackslash
  · next escape => exact absurd (List.cons_eq_cons.mp escape).1 notBackslash
  · next plain =>
    cases plain
    rw [if_neg (not_lt.mpr visible)]
    cases scanUnits rest <;> rfl

theorem toNat_ofNat_ascii {n : Nat} (ascii : n < 128) : (Char.ofNat n).toNat = n := by
  revert n
  decide

theorem scanUnits_encodeCodePoint {n : Nat} (valid : n < 0x110000) (rest : List Char) :
    scanUnits (encodeCodePoint n ++ rest) =
      (scanUnits rest).map fun scanned => (unitsOf n ++ scanned.1, scanned.2) := by
  by_cases simple : n = 34 ∨ n = 92 ∨ n = 10 ∨ n = 13 ∨ n = 9 ∨ n = 12 ∨ n = 8
  · rcases simple with rfl | rfl | rfl | rfl | rfl | rfl | rfl <;> exact scanUnits_simple rfl rest
  · simp only [not_or] at simple
    obtain ⟨h34, h92, h10, h13, h9, h12, h8⟩ := simple
    simp only [encodeCodePoint, unitsOf, h34, h92, h10, h13, h9, h12, h8, if_false, false_or]
    by_cases visible : 32 ≤ n ∧ n ≤ 126
    · have number : (Char.ofNat n).toNat = n := toNat_ofNat_ascii (by omega)
      have other {c : Char} (different : n ≠ c.toNat) : Char.ofNat n ≠ c := by
        rintro rfl
        exact different number.symm
      rw [if_pos visible, if_pos visible]
      have scanned := scanUnits_plain (other h34) (other h92) (number.symm ▸ visible.1) rest
      rw [number] at scanned
      exact scanned
    · rw [if_neg visible, if_neg visible]
      split
      · next small => exact scanUnits_escaped small rest
      · next large =>
        rw [List.append_assoc, scanUnits_escaped (by omega), scanUnits_escaped (by omega), Option.map_map]
        rfl

/-- A code point that is no surrogate comes back from its units. -/
theorem pairSurrogates_unitsOf {n : Nat} (valid : n.isValidChar) (rest : List StringUnit) :
    pairSurrogates (unitsOf n ++ rest) = n :: pairSurrogates rest := by
  have scalar : n < 0xd800 ∨ 0xdfff < n ∧ n < 0x110000 := valid
  unfold unitsOf
  split
  · rfl
  · split
    · next small =>
      have notHigh : isHighSurrogate n = false := by
        simp only [isHighSurrogate, Bool.and_eq_false_iff, decide_eq_false_iff_not]
        omega
      cases rest with
      | nil => rfl
      | cons unit rest =>
        cases unit with
        | plain m => rfl
        | escaped m =>
          change pairSurrogates (.escaped n :: .escaped m :: rest) = _
          rw [pairSurrogates, notHigh]
          rfl
    · next large =>
      have high : isHighSurrogate (0xd800 + (n - 0x10000) / 1024) = true := by
        simp only [isHighSurrogate, Bool.and_eq_true, decide_eq_true_eq]
        omega
      have low : isLowSurrogate (0xdc00 + (n - 0x10000) % 1024) = true := by
        simp only [isLowSurrogate, Bool.and_eq_true, decide_eq_true_eq]
        omega
      have joined : 0x10000 + ((0xd800 + (n - 0x10000) / 1024 - 0xd800) * 1024 +
          (0xdc00 + (n - 0x10000) % 1024 - 0xdc00)) = n := by omega
      rw [List.cons_append, List.cons_append, List.nil_append, pairSurrogates, high, low, Bool.and_self, if_pos rfl,
        joined]

theorem scanUnits_encoded {codePoints : List Nat} (valid : ∀ n ∈ codePoints, n.isValidChar) (rest : List Char) :
    scanUnits (codePoints.flatMap encodeCodePoint ++ '"' :: rest) = some (codePoints.flatMap unitsOf, rest) := by
  induction codePoints with
  | nil => rfl
  | cons n codePoints ih =>
    obtain ⟨head, tail⟩ := List.forall_mem_cons.mp valid
    have scalar : n < 0xd800 ∨ 0xdfff < n ∧ n < 0x110000 := head
    rw [List.flatMap_cons, List.append_assoc, scanUnits_encodeCodePoint (by omega), ih tail]
    rfl

theorem pairSurrogates_units {codePoints : List Nat} (valid : ∀ n ∈ codePoints, n.isValidChar) :
    pairSurrogates (codePoints.flatMap unitsOf) = codePoints := by
  induction codePoints with
  | nil => rfl
  | cons n codePoints ih =>
    obtain ⟨head, tail⟩ := List.forall_mem_cons.mp valid
    rw [List.flatMap_cons, pairSurrogates_unitsOf head, ih tail]

/-- A text is read back as it was written. -/
theorem scanString_encoded (s : String) (rest : List Char) :
    scanString ((Str.text s).codePoints.flatMap encodeCodePoint ++ '"' :: rest) = some (.text s, rest) := by
  have valid : ∀ n ∈ (Str.text s).codePoints, n.isValidChar := by
    simp only [Str.codePoints, List.forall_mem_map]
    exact fun c _ => c.valid
  rw [scanString, scanUnits_encoded valid, Option.map_some, pairSurrogates_units valid, Str.ofCodePoints_text]

variable [FloatText F]

/-- What may follow a value. -/
def Delimited (rest : List Char) : Prop := ∀ c ∈ rest.head?, c = ',' ∨ c = ']' ∨ c = '}'

/-- What a value starts with. -/
def Opening (c : Char) : Prop := c.toNat < 128 ∧ isSpace c = false ∧ c ≠ ']'

/-- The text of the one value is read as the other, wherever it stands. -/
structure ReadsAs (value read : Json F) : Prop where
  starts : ∃ c rest, encode value = c :: rest ∧ Opening c
  scan : ∀ fuel rest, 2 * (encode value).length ≤ fuel → Delimited rest →
    scanValue fuel (encode value ++ rest) = some (read, rest)

theorem encodeString_append (s : Str) (rest : List Char) :
    encodeString s ++ rest = '"' :: (s.codePoints.flatMap encodeCodePoint ++ '"' :: rest) := by
  simp [encodeString]

theorem readsAs_text (s : String) : ReadsAs (text s : Json F) (text s) where
  starts := ⟨'"', (Str.text s).codePoints.flatMap encodeCodePoint ++ ['"'], rfl, by decide, rfl, by decide⟩
  scan fuel rest enough _ := by
    have positive : 0 < (encode (text s : Json F)).length := by simp [encode, encodeString]
    obtain ⟨fuel, rfl⟩ := Nat.exists_eq_succ_of_ne_zero (by omega : fuel ≠ 0)
    rw [encode, encodeString_append, scanValue, scanString_encoded]
    rfl

theorem readsAs_one : ReadsAs (.int 1 : Json F) (.int 1) where
  starts := ⟨'1', [], rfl, by decide, rfl, by decide⟩
  scan fuel rest enough delimited := by
    have length : (encode (.int 1 : Json F)).length = 1 := rfl
    obtain ⟨fuel, rfl⟩ := Nat.exists_eq_succ_of_ne_zero (by omega : fuel ≠ 0)
    change scanValue (fuel + 1) ('1' :: rest) = _
    cases rest with
    | nil => rfl
    | cons c rest =>
      rcases delimited c rfl with rfl | rfl | rfl <;> rfl

theorem skipSpace_cons {c : Char} (visible : isSpace c = false) (rest : List Char) :
    skipSpace (c :: rest) = c :: rest :=
  List.dropWhile_cons_of_neg (by simp [visible])

theorem encodeElements_eq (elements : List (Json F)) : encodeElements elements = elements.map encode := by
  induction elements with
  | nil => rfl
  | cons element rest ih => rw [encodeElements, ih, List.map_cons]

theorem encodeMembers_eq (members : List (Str × Json F)) :
    encodeMembers members = members.map fun member => (member.1, encode member.2) := by
  induction members with
  | nil => rfl
  | cons member rest ih => rw [encodeMembers, ih, List.map_cons]

theorem commaJoin_cons_cons (x y : List Char) (rest : List (List Char)) :
    commaJoin (x :: y :: rest) = x ++ ',' :: commaJoin (y :: rest) := rfl

theorem scanElements_last {fuel : Nat} {input after : List Char} {element : Json F}
    (scanned : scanValue fuel input = some (element, ']' :: after)) :
    scanElements (fuel + 1) input = some ([element], after) := by
  rw [scanElements, scanned]
  rfl

theorem scanElements_more {fuel : Nat} {input rest : List Char} {element : Json F}
    (scanned : scanValue fuel input = some (element, ',' :: rest)) :
    scanElements (fuel + 1) input =
      (scanElements fuel (skipSpace rest)).map fun scanned => (element :: scanned.1, scanned.2) := by
  rw [scanElements, scanned]
  change ((scanElements fuel (skipSpace rest) : Option (List (Json F) × List Char)) >>= _) = _
  cases (scanElements fuel (skipSpace rest) : Option (List (Json F) × List Char)) <;> rfl

theorem joined_starts {value read : Json F} (readsAs : ReadsAs value read) (rest : List (List Char))
    (after : List Char) :
    ∃ c tail, commaJoin (encode value :: rest) ++ after = c :: tail ∧ Opening c := by
  obtain ⟨c, tail, starts, opening⟩ := readsAs.starts
  cases rest with
  | nil => exact ⟨c, tail ++ after, by rw [commaJoin, starts, List.cons_append], opening⟩
  | cons next rest =>
    refine ⟨c, tail ++ (',' :: commaJoin (next :: rest) ++ after), ?_, opening⟩
    rw [commaJoin_cons_cons, List.append_assoc, starts, List.cons_append]

theorem scanElements_joined {element read : Json F} {rest reads : List (Json F)} (head : ReadsAs element read)
    (tail : List.Forall₂ ReadsAs rest reads) (fuel : Nat) (after : List Char)
    (enough : 2 * (commaJoin ((element :: rest).map encode)).length + 1 ≤ fuel) :
    scanElements fuel (commaJoin ((element :: rest).map encode) ++ ']' :: after) = some (read :: reads, after) := by
  induction tail generalizing element read fuel with
  | nil =>
    obtain ⟨fuel, rfl⟩ := Nat.exists_eq_succ_of_ne_zero (by omega : fuel ≠ 0)
    simp only [List.map_cons, List.map_nil, commaJoin] at enough ⊢
    exact scanElements_last (head.scan fuel _ (by omega) (by simp [Delimited]))
  | @cons next _ rest _ following tail ih =>
    obtain ⟨fuel, rfl⟩ := Nat.exists_eq_succ_of_ne_zero (by omega : fuel ≠ 0)
    simp only [List.map_cons, commaJoin_cons_cons, List.length_append, List.length_cons] at enough ⊢
    rw [List.append_assoc, List.cons_append]
    have whole := ih following fuel (by rw [List.map_cons]; omega)
    obtain ⟨c, inner, starts, _, visible, _⟩ := joined_starts following (rest.map encode) (']' :: after)
    rw [List.map_cons, starts] at whole
    rw [scanElements_more (head.scan fuel _ (by omega) (by simp [Delimited])), starts, skipSpace_cons visible, whole]
    rfl

theorem scanValue_array {fuel : Nat} {c : Char} (visible : isSpace c = false) (notClosing : c ≠ ']')
    (rest : List Char) :
    (scanValue (fuel + 1) ('[' :: c :: rest) : Option (Json F × List Char)) =
      (scanElements fuel (c :: rest)).map fun scanned => (.array scanned.1, scanned.2) := by
  simp only [scanValue, skipSpace_cons visible]
  split
  · next closing => exact absurd (List.cons_eq_cons.mp closing).1 notClosing
  · rfl

theorem readsAs_array {elements reads : List (Json F)} (related : List.Forall₂ ReadsAs elements reads) :
    ReadsAs (.array elements) (.array reads) where
  starts := ⟨'[', _, by rw [encode, List.cons_append], by decide, rfl, by decide⟩
  scan fuel rest enough _ := by
    rw [encode, encodeElements_eq] at enough ⊢
    simp only [List.length_cons, List.length_append, List.length_nil] at enough
    obtain ⟨fuel, rfl⟩ := Nat.exists_eq_succ_of_ne_zero (by omega : fuel ≠ 0)
    cases related with
    | nil => rfl
    | @cons element _ elements _ head tail =>
      have scanned := scanElements_joined head tail fuel rest (by omega)
      obtain ⟨c, inner, starts, _, visible, notClosing⟩ := joined_starts head (elements.map encode) (']' :: rest)
      rw [List.map_cons, starts] at scanned
      rw [List.cons_append, List.cons_append, List.append_assoc, List.cons_append, List.nil_append,
        List.map_cons, starts,
        scanValue_array visible notClosing, scanned]
      rfl

/-- The text of one member of an object. -/
def encodeMember (member : Str × Json F) : List Char := encodeString member.1 ++ ':' :: encode member.2

/-- The member has a text for its key and its value is read as the other member's, under the same key. -/
def MemberReadsAs (member read : Str × Json F) : Prop :=
  (∃ key, member.1 = .text key) ∧ read.1 = member.1 ∧ ReadsAs member.2 read.2

theorem ReadsAs.member {value read : Json F} (readsAs : ReadsAs value read) (key : String) :
    MemberReadsAs (.text key, value) (.text key, read) := ⟨⟨key, rfl⟩, rfl, readsAs⟩

theorem scanMembers_step {member read : Str × Json F} (readsAs : MemberReadsAs member read) {fuel : Nat}
    {rest : List Char}
    (enough : 2 * (encode member.2).length ≤ fuel) (delimited : Delimited rest) :
    scanMembers (fuel + 1) (encodeMember member ++ rest) =
      match skipSpace rest with
      | '}' :: rest => some ([read], rest)
      | ',' :: rest => (scanMembers fuel (skipSpace rest)).map fun scanned => (read :: scanned.1, scanned.2)
      | _ => none := by
  obtain ⟨memberKey, value⟩ := member
  obtain ⟨readKey, readValue⟩ := read
  obtain ⟨⟨key, rfl⟩, rfl, readsValue⟩ := readsAs
  obtain ⟨c, tail, starts, _, visible, _⟩ := readsValue.starts
  have value := readsValue.scan fuel rest enough delimited
  rw [starts, List.cons_append] at value
  rw [encodeMember, List.append_assoc, encodeString_append, List.cons_append, starts, List.cons_append]
  simp only [scanMembers, scanString_encoded, Option.bind_eq_bind, Option.bind_some,
    skipSpace_cons (show isSpace ':' = false from rfl), skipSpace_cons visible, value]
  split
  · rfl
  · next rest _ =>
    cases (scanMembers fuel (skipSpace rest) : Option (List (Str × Json F) × List Char)) <;> rfl
  · rfl

theorem joined_members_start (member : Str × Json F) (rest : List (List Char)) (after : List Char) :
    ∃ tail, commaJoin (encodeMember member :: rest) ++ after = '"' :: tail := by
  cases rest with
  | nil => exact ⟨_, by rw [commaJoin, encodeMember, List.append_assoc, encodeString_append]⟩
  | cons next rest =>
    exact ⟨_, by rw [commaJoin_cons_cons, List.append_assoc, encodeMember, List.append_assoc, encodeString_append]⟩

theorem scanMembers_joined {member read : Str × Json F} {rest reads : List (Str × Json F)}
    (head : MemberReadsAs member read) (tail : List.Forall₂ MemberReadsAs rest reads) (fuel : Nat) (after : List Char)
    (enough : 2 * (commaJoin ((member :: rest).map encodeMember)).length + 1 ≤ fuel) :
    scanMembers fuel (commaJoin ((member :: rest).map encodeMember) ++ '}' :: after) = some (read :: reads, after) := by
  have value (member : Str × Json F) : (encode member.2).length ≤ (encodeMember member).length := by
    simp only [encodeMember, List.length_append, List.length_cons]
    omega
  induction tail generalizing member read fuel with
  | nil =>
    obtain ⟨fuel, rfl⟩ := Nat.exists_eq_succ_of_ne_zero (by omega : fuel ≠ 0)
    simp only [List.map_cons, List.map_nil, commaJoin] at enough ⊢
    have shorter := value member
    rw [scanMembers_step head (by omega) (by simp [Delimited])]
    rfl
  | @cons next _ rest _ following tail ih =>
    obtain ⟨fuel, rfl⟩ := Nat.exists_eq_succ_of_ne_zero (by omega : fuel ≠ 0)
    simp only [List.map_cons, commaJoin_cons_cons, List.length_append, List.length_cons] at enough ⊢
    have shorter := value member
    have whole := ih following fuel (by rw [List.map_cons]; omega)
    obtain ⟨inner, starts⟩ := joined_members_start next (rest.map encodeMember) ('}' :: after)
    rw [List.map_cons, starts] at whole
    rw [List.append_assoc, List.cons_append, scanMembers_step head (by omega) (by simp [Delimited]), starts,
      skipSpace_cons (c := ',') rfl]
    simp only [skipSpace_cons (c := '"') rfl, whole]
    rfl

omit [FloatText F] in
/-- Members under distinct keys are all kept, in their order. -/
theorem collectMembers_of_nodup {members : List (Str × Json F)} (distinct : (members.map Prod.fst).Nodup) :
    collectMembers members = members := by
  have collected (kept : List (Str × Json F)) (distinct : ((kept ++ members).map Prod.fst).Nodup) :
      members.foldl (fun collected member => Dict.setEntry member.1 member.2 collected) kept = kept ++ members := by
    clear * - distinct
    induction members generalizing kept with
    | nil => exact (List.append_nil _).symm
    | cons member members ih =>
      have fresh : member.1 ∉ kept.map Prod.fst := by
        rw [List.map_append, List.map_cons] at distinct
        exact fun listed => (List.nodup_append.mp distinct).2.2 _ listed _ List.mem_cons_self rfl
      rw [List.foldl_cons, Dict.setEntry_of_fresh fresh, ih _ (by simpa using distinct), List.append_assoc]
      rfl
  exact collected [] distinct

theorem encode_object {members ordered : List (Str × Json F)} (permuted : ordered.Perm members)
    (ascending : ordered.Pairwise fun a b => a.1.codePoints < b.1.codePoints) :
    encode (.object members) = '{' :: commaJoin (ordered.map encodeMember) ++ ['}'] := by
  have sorted : StableSort.sortOn (fun member => member.1.codePoints) members = ordered :=
    StableSort.sortOn_of_perm permuted ascending
  rw [encode, encodeMembers_eq, StableSort.sortOn_map, List.map_map]
  exact congrArg (fun sorted => '{' :: commaJoin (sorted.map encodeMember) ++ ['}']) sorted

omit [FloatText F] in
theorem ascending_of_keys {members : List (Str × Json F)} (keys : List String)
    (named : members.map Prod.fst = keys.map Str.text)
    (ascending : (keys.map fun key => (Str.text key).codePoints).Pairwise (· < ·)) :
    members.Pairwise fun a b => a.1.codePoints < b.1.codePoints := by
  have codePoints : keys.map (fun key => (Str.text key).codePoints) =
      members.map fun member => member.1.codePoints := by
    have mapped := congrArg (List.map Str.codePoints) named
    rw [List.map_map, List.map_map] at mapped
    exact mapped.symm
  rwa [codePoints, List.pairwise_map] at ascending

/-- An object is read back with its members in the order of their keys. -/
theorem readsAs_object {members ordered reads : List (Str × Json F)} (permuted : ordered.Perm members)
    (ascending : ordered.Pairwise fun a b => a.1.codePoints < b.1.codePoints)
    (related : List.Forall₂ MemberReadsAs ordered reads) : ReadsAs (.object members) (.object reads) where
  starts := ⟨'{', _, by rw [encode, List.cons_append], by decide, rfl, by decide⟩
  scan fuel rest enough _ := by
    rw [encode_object permuted ascending] at enough ⊢
    simp only [List.length_cons, List.length_append, List.length_nil] at enough
    obtain ⟨fuel, rfl⟩ := Nat.exists_eq_succ_of_ne_zero (by omega : fuel ≠ 0)
    cases related with
    | nil => rfl
    | @cons member read ordered reads head tail =>
      have distinct : ((read :: reads).map Prod.fst).Nodup := by
        have keys : (read :: reads).map Prod.fst = (member :: ordered).map Prod.fst := by
          rw [← List.forall₂_eq_eq_eq, List.forall₂_map_left_iff, List.forall₂_map_right_iff]
          exact (List.Forall₂.cons head tail).flip.imp fun _ _ reads => reads.2.1
        rw [keys, List.Nodup, List.pairwise_map]
        exact ascending.imp fun below same => absurd (congrArg Str.codePoints same) below.ne
      have scanned := scanMembers_joined head tail fuel rest (by omega)
      obtain ⟨inner, starts⟩ := joined_members_start member (ordered.map encodeMember) ('}' :: rest)
      rw [List.map_cons, starts] at scanned
      rw [List.cons_append, List.cons_append, List.append_assoc, List.cons_append, List.nil_append,
        List.map_cons, starts]
      rw [scanValue]
      simp only [skipSpace_cons (c := '"') rfl]
      change (scanMembers fuel ('"' :: inner)).map _ = _
      rw [scanned, Option.map_some, collectMembers_of_nodup distinct]

/-- What is written is read back. -/
theorem loads_dumps {value read : Json F} (readsAs : ReadsAs value read) : loads (dumps value) = some read := by
  obtain ⟨c, tail, starts, ascii, visible, _⟩ := readsAs.starts
  have scanned := readsAs.scan (2 * (encode value).length + 2) [] (by omega) (by simp [Delimited])
  have noMark : (encode value).head? ≠ some (Char.ofNat 0xfeff) := by
    rw [starts, List.head?_cons, Ne, Option.some_inj]
    rintro rfl
    exact absurd ascii (by decide)
  rw [List.append_nil, starts] at scanned
  rw [loads, dumps, String.toList_ofList, if_neg noMark, starts, skipSpace_cons visible, scanned]
  rfl

end RoundTrip
end Json

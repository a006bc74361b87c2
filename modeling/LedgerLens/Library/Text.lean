import Mathlib.Data.List.DropRight

/-- The Unicode database an interpreter ships with. Its version is left open; on ASCII every version
agrees. -/
class UnicodeDatabase where
  /-- The full uppercase mapping, which may lengthen a character. -/
  upper : Char → List Char
  /-- Letters and numbers, of any script. -/
  isAlnum : Char → Bool
  upper_ascii : ∀ c, c.toNat < 128 → upper c = [c.toUpper]
  upper_upper : ∀ c, (upper c).flatMap upper = upper c
  isAlnum_ascii : ∀ c, c.toNat < 128 → isAlnum c = c.isAlphanum

namespace Text

/-- The characters that `strip` removes. -/
def isSpace (c : Char) : Bool :=
  let n := c.toNat
  (9 ≤ n && n ≤ 13) || (28 ≤ n && n ≤ 32) || n = 0x85 || n = 0xa0 || n = 0x1680 ||
    (0x2000 ≤ n && n ≤ 0x200a) || n = 0x2028 || n = 0x2029 || n = 0x202f || n = 0x205f || n = 0x3000

def strip (s : String) : String :=
  String.ofList ((s.toList.dropWhile isSpace).reverse.dropWhile isSpace).reverse

theorem strip_visible {s : String} (visible : ∀ c ∈ s.toList, isSpace c = false) : strip s = s := by
  have kept {cs : List Char} (visible : ∀ c ∈ cs, isSpace c = false) : cs.dropWhile isSpace = cs := by
    cases cs with
    | nil => rfl
    | cons c cs => exact List.dropWhile_cons_of_neg (by simp [visible c List.mem_cons_self])
  rw [strip, kept visible, kept (by simpa using visible), List.reverse_reverse, String.ofList_toList]

theorem toList_strip (s : String) : (strip s).toList = (s.toList.dropWhile isSpace).rdropWhile isSpace :=
  String.toList_ofList

theorem length_strip_le (s : String) : (strip s).length ≤ s.length := by
  rw [← String.length_toList, ← String.length_toList, toList_strip]
  exact ((List.rdropWhile_prefix _ _).sublist.trans (List.dropWhile_sublist _)).length_le

theorem strip_strip (s : String) : strip (strip s) = strip s := by
  have settled : (strip s).toList.dropWhile isSpace = (strip s).toList := by
    obtain ⟨rest, whole⟩ := List.rdropWhile_prefix isSpace (s.toList.dropWhile isSpace)
    have first := List.head?_dropWhile_not isSpace s.toList
    rw [toList_strip]
    cases stripped : (s.toList.dropWhile isSpace).rdropWhile isSpace with
    | nil => rfl
    | cons c cs =>
      rw [← whole, stripped] at first
      exact List.dropWhile_cons_of_neg (by simpa using first)
  rw [← String.toList_inj, toList_strip (strip s), settled, toList_strip, List.rdropWhile_idempotent]

def upper [UnicodeDatabase] (s : String) : String := String.ofList (s.toList.flatMap UnicodeDatabase.upper)

/-- The first bytes of a text; cheap to compare where whole texts are not. -/
def leadingBytes (n : Nat) (s : String) : List UInt8 := s.toByteArray.data.toList.take n

theorem leadingBytes_append {n : Nat} {first : String} (enough : n ≤ first.toByteArray.data.toList.length)
    (rest : String) : leadingBytes n (first ++ rest) = leadingBytes n first := by
  rw [leadingBytes, String.toByteArray_append, ByteArray.data_append, Array.toList_append,
    List.take_append_of_le_length enough, leadingBytes]

theorem append_ne_append {n : Nat} {label other : String} (long : n ≤ label.toByteArray.data.toList.length)
    (long' : n ≤ other.toByteArray.data.toList.length) (different : leadingBytes n label ≠ leadingBytes n other)
    (rest rest' : String) : label ++ rest ≠ other ++ rest' := by
  intro same
  have bytes := congrArg (leadingBytes n) same
  rw [leadingBytes_append long, leadingBytes_append long'] at bytes
  exact different bytes

/-- What stands before and after the last occurrence of a character. -/
theorem split_last {c : Char} {before before' after after' : List Char} (absent : c ∉ after) (absent' : c ∉ after')
    (same : before ++ c :: after = before' ++ c :: after') : before = before' ∧ after = after' := by
  induction before generalizing before' with
  | nil =>
    cases before' with
    | nil => exact ⟨rfl, (List.cons_eq_cons.mp same).2⟩
    | cons d before' =>
      obtain ⟨_, rest⟩ := List.cons_eq_cons.mp same
      exact absurd (rest ▸ List.mem_append_right before' List.mem_cons_self) absent
  | cons d before ih =>
    cases before' with
    | nil =>
      obtain ⟨_, rest⟩ := List.cons_eq_cons.mp same
      exact absurd (rest ▸ List.mem_append_right before List.mem_cons_self) absent'
    | cons e before' =>
      obtain ⟨head, rest⟩ := List.cons_eq_cons.mp same
      obtain ⟨tail, end_⟩ := ih rest
      exact ⟨by rw [head, tail], end_⟩

/-- A part that a character does not occur in stands on one side of it. -/
theorem split_around {c : Char} {left right front middle after : List Char} (absent : c ∉ middle)
    (same : left ++ c :: right = front ++ (middle ++ after)) :
    (∃ rest, left = front ++ (middle ++ rest) ∧ after = rest ++ c :: right) ∨
      ∃ rest, front = left ++ c :: rest ∧ right = rest ++ (middle ++ after) := by
  rcases List.append_eq_append_iff.mp same with ⟨rest, rfl, split⟩ | ⟨rest, rfl, split⟩
  · cases rest with
    | nil =>
      left
      cases middle with
      | nil => exact ⟨[], by simp, split.symm⟩
      | cons d middle => exact absurd ((List.cons.inj split).1 ▸ List.mem_cons_self) absent
    | cons d rest =>
      obtain ⟨rfl, tail⟩ := List.cons.inj split
      exact .inr ⟨rest, rfl, tail⟩
  · rcases List.append_eq_append_iff.mp split with ⟨tail, rfl, rest⟩ | ⟨tail, rfl, rest⟩
    · exact .inl ⟨tail, rfl, rest⟩
    · cases tail with
      | nil => exact .inl ⟨[], by simp, rest.symm⟩
      | cons d tail => exact absurd ((List.cons.inj rest).1 ▸ List.mem_append_right _ List.mem_cons_self) absent

theorem utf8Size_of_isDigit {c : Char} (digit : c.isDigit) : c.utf8Size = 1 := by
  have ascii : c.val ≤ 0x7f := UInt32.le_iff_toNat_le.mpr (Nat.le_trans (Char.isDigit_iff_toNat.mp digit).2 (by decide))
  exact if_pos ascii

theorem toString_nat_toList (n : Nat) : (toString n).toList = Nat.toDigits 10 n := String.toList_ofList

theorem toString_nat_digits {n : Nat} {c : Char} (digit : c ∈ (toString n).toList) : c.isDigit := by
  rw [toString_nat_toList] at digit
  exact Nat.isDigit_of_mem_toDigits (by decide) (by decide) digit

theorem toString_nat_ne_nil (n : Nat) : (toString n).toList ≠ [] := by
  rw [toString_nat_toList]
  exact Nat.toDigits_ne_nil

theorem ofDigitChars_toString (n : Nat) : Nat.ofDigitChars 10 (toString n).toList 0 = n := by
  rw [toString_nat_toList, Nat.ofDigitChars_ten_toDigits]

theorem toString_nat_injective {m n : Nat} (same : toString m = toString n) : m = n := by
  rw [← ofDigitChars_toString m, same, ofDigitChars_toString]

theorem toString_negSucc (n : Nat) : toString (Int.negSucc n) = "-" ++ toString (n + 1) := rfl

theorem toString_int_chars {n : Int} {c : Char} (char : c ∈ (toString n).toList) : c = '-' ∨ c.isDigit := by
  cases n with
  | ofNat n => exact .inr (toString_nat_digits char)
  | negSucc n =>
    rw [toString_negSucc, String.toList_append] at char
    rcases List.mem_append.mp char with minus | digit
    · exact .inl (List.mem_singleton.mp minus)
    · exact .inr (toString_nat_digits digit)

theorem toString_int_injective {m n : Int} (same : toString m = toString n) : m = n := by
  have minus {k l : Nat} (same : (toString k : String) = "-" ++ toString l) : False := by
    have char : '-' ∈ (toString k : String).toList := by
      rw [same, String.toList_append]
      exact List.mem_append_left _ (List.mem_singleton.mpr rfl)
    exact absurd (toString_nat_digits char) (by decide)
  cases m with
  | ofNat m =>
    cases n with
    | ofNat n => exact congrArg Int.ofNat (toString_nat_injective same)
    | negSucc n => exact (minus same).elim
  | negSucc m =>
    cases n with
    | ofNat n => exact (minus same.symm).elim
    | negSucc n =>
      have digits := congrArg String.toList same
      simp only [toString_negSucc, String.toList_append, List.append_cancel_left_eq] at digits
      have succ := toString_nat_injective (String.toList_inj.mp digits)
      rw [Nat.succ.inj succ]

theorem upper_upper [UnicodeDatabase] (s : String) : upper (upper s) = upper s := by
  simp only [upper, String.toList_ofList, List.flatMap_assoc, UnicodeDatabase.upper_upper]

theorem toUpper_toUpper (c : Char) : c.toUpper.toUpper = c.toUpper := by
  by_cases lower : 'a'.val ≤ c.val ∧ c.val ≤ 'z'.val
  · have raised : ¬ ('a'.val ≤ c.toUpper.val ∧ c.toUpper.val ≤ 'z'.val) := by
      have first : 'a'.val.toNat = 97 := by decide
      have last : 'z'.val.toNat = 122 := by decide
      have shift : ('A'.val - 'a'.val).toNat = 4294967264 := by decide
      have value : c.toUpper.val = c.val + ('A'.val - 'a'.val) := by rw [Char.toUpper.eq_def, dif_pos lower]
      rw [value, UInt32.le_iff_toNat_le, UInt32.le_iff_toNat_le, UInt32.toNat_add]
      simp only [UInt32.le_iff_toNat_le] at lower
      omega
    rw [Char.toUpper.eq_def c.toUpper, dif_neg raised]
  · rw [Char.toUpper.eq_def c, dif_neg lower, Char.toUpper.eq_def c, dif_neg lower]

/-- A database that knows the ASCII characters only. -/
@[reducible] def asciiDatabase : UnicodeDatabase where
  upper c := [c.toUpper]
  isAlnum c := c.isAlphanum
  upper_ascii _ _ := rfl
  upper_upper c := congrArg (fun raised => [raised]) (toUpper_toUpper c)
  isAlnum_ascii _ _ := rfl

example : strip " \t AAPL \n" = "AAPL" := by decide

end Text

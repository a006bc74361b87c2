import Mathlib.Data.List.Basic

namespace Hex

/-- The number a hexadecimal digit of either case stands for. -/
def value (c : Char) : Option Nat :=
  if '0' ≤ c ∧ c ≤ '9' then some (c.toNat - 48)
  else if 'a' ≤ c ∧ c ≤ 'f' then some (c.toNat - 87)
  else if 'A' ≤ c ∧ c ≤ 'F' then some (c.toNat - 55)
  else none

theorem value_digitChar {n : Nat} (small : n < 16) : value n.digitChar = some n := by
  revert n
  decide

theorem digitChar_injective {m n : Nat} (left : m < 16) (right : n < 16) (same : m.digitChar = n.digitChar) :
    m = n := by
  have values := congrArg value same
  rw [value_digitChar left, value_digitChar right] at values
  exact Option.some.inj values

/-- The two digits of a byte. -/
def byteDigits (byte : UInt8) : List Char := [(byte.toNat / 16).digitChar, (byte.toNat % 16).digitChar]

/-- Bytes written with two digits each. -/
def hexdigest (bytes : List UInt8) : String := String.ofList (bytes.flatMap byteDigits)

theorem byteDigits_injective {a b : UInt8} (same : byteDigits a = byteDigits b) : a = b := by
  obtain ⟨high, low⟩ := List.cons_eq_cons.mp same
  have left := a.toNat_lt
  have right := b.toNat_lt
  have upper := digitChar_injective (by omega) (by omega) high
  have lower := digitChar_injective (by omega) (by omega) (List.cons_eq_cons.mp low).1
  exact UInt8.toNat_inj.mp (by omega)

theorem hexdigest_injective : Function.Injective hexdigest := by
  intro left right same
  have digits := String.ofList_inj.mp same
  clear same
  induction left generalizing right with
  | nil =>
    cases right with
    | nil => rfl
    | cons b right => cases digits
  | cons a left ih =>
    cases right with
    | nil => cases digits
    | cons b right =>
      rw [List.flatMap_cons, List.flatMap_cons] at digits
      obtain ⟨head, tail⟩ := List.append_inj digits rfl
      rw [byteDigits_injective head, ih tail]

theorem colon_not_mem_hexdigest (bytes : List UInt8) : ':' ∉ (hexdigest bytes).toList := by
  rw [hexdigest, String.toList_ofList, List.mem_flatMap]
  rintro ⟨byte, _, digit⟩
  have noDigit (n : Nat) : ':' ≠ n.digitChar := (Nat.digitChar_ne ':' (by decide)).symm
  simp only [byteDigits, List.mem_cons, List.not_mem_nil, or_false] at digit
  exact digit.elim (noDigit _) (noDigit _)

/-- The number that digits stand for. -/
def number (digits : List Char) : Nat := digits.foldl (fun n digit => 16 * n + (value digit).getD 0) 0

theorem number_append_singleton (digits : List Char) (digit : Char) :
    number (digits ++ [digit]) = 16 * number digits + (value digit).getD 0 := by
  simp only [number, List.foldl_append, List.foldl_cons, List.foldl_nil]

theorem number_toDigits (n : Nat) : number (Nat.toDigits 16 n) = n := by
  induction n using Nat.strongRecOn with
  | _ n ih =>
    rw [Nat.toDigits_eq_if (by decide)]
    split
    · next small => simp [number, value_digitChar small]
    · next large =>
      have last : n % 16 < 16 := Nat.mod_lt _ (by decide)
      rw [number_append_singleton, ih (n / 16) (by omega), value_digitChar last]
      exact Nat.div_add_mod n 16

/-- The digits of a number, filled up with zeros to a width. -/
def padded (width n : Nat) : List Char := (Nat.toDigits 16 n).leftpad width '0'

theorem number_padded (width n : Nat) : number (padded width n) = n := by
  rw [padded, List.leftpad, number, List.foldl_append]
  have zeros (k : Nat) : (List.replicate k '0').foldl (fun n digit => 16 * n + (value digit).getD 0) 0 = 0 := by
    induction k with
    | zero => rfl
    | succ k ih => exact ih
  rw [zeros]
  exact number_toDigits n

theorem dash_not_mem_padded (width n : Nat) : '-' ∉ padded width n := by
  have digit (n : Nat) : '-' ≠ n.digitChar := (Nat.digitChar_ne '-' (by decide)).symm
  rw [padded, List.leftpad, List.mem_append, not_or]
  refine ⟨fun zero => absurd (List.eq_of_mem_replicate zero) (by decide), ?_⟩
  induction n using Nat.strongRecOn with
  | _ n ih =>
    rw [Nat.toDigits_eq_if (by decide)]
    split
    · exact fun member => digit n (List.mem_singleton.mp member)
    · next large =>
      rw [List.mem_append, not_or]
      exact ⟨ih (n / 16) (by omega), fun member => digit _ (List.mem_singleton.mp member)⟩

end Hex

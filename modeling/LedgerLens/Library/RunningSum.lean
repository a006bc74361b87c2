import Mathlib.Algebra.BigOperators.Group.List.Basic
import Mathlib.Algebra.Order.Group.Defs

namespace RunningSum
universe u v
variable {α : Type u} {M : Type v} [AddCommGroup M]

/-- The total of the amounts along a list. -/
def total (amount : α → M) (xs : List α) : M := (xs.map amount).sum

@[simp] theorem total_nil (amount : α → M) : total amount [] = 0 := rfl

@[simp] theorem total_cons (amount : α → M) (a : α) (xs : List α) :
    total amount (a :: xs) = amount a + total amount xs := by
  simp [total]

@[simp] theorem total_append (amount : α → M) (xs ys : List α) :
    total amount (xs ++ ys) = total amount xs + total amount ys := by
  simp [total]

theorem total_perm (amount : α → M) {xs ys : List α} (same : xs.Perm ys) :
    total amount xs = total amount ys :=
  (same.map amount).sum_eq

theorem total_eq_zero {amount : α → M} {xs : List α} (amountless : ∀ a ∈ xs, amount a = 0) :
    total amount xs = 0 := by
  induction xs with
  | nil => rfl
  | cons a xs ih =>
    rw [total_cons, amountless a List.mem_cons_self, ih fun b member => amountless b (List.mem_cons_of_mem _ member),
      add_zero]

/-- A list splits its total between the part that passes a test and the rest. -/
theorem total_filter_add (amount : α → M) (p : α → Bool) (xs : List α) :
    total amount (xs.filter p) + total amount (xs.filter fun a => !p a) = total amount xs := by
  induction xs with
  | nil => simp
  | cons a xs ih =>
    by_cases passes : p a
    · simp [passes, ← ih, add_assoc]
    · simp [passes, ← ih, add_left_comm]

variable [LinearOrder M]

/-- Started at `base`, the running total never drops below zero. -/
def StaysNonneg (amount : α → M) (base : M) (xs : List α) : Prop :=
  ∀ n, 0 ≤ base + total amount (xs.take n)

@[simp] theorem staysNonneg_nil {amount : α → M} {base : M} : StaysNonneg amount base [] ↔ 0 ≤ base := by
  simp [StaysNonneg]

theorem staysNonneg_cons {amount : α → M} {base : M} {a : α} {xs : List α} :
    StaysNonneg amount base (a :: xs) ↔ 0 ≤ base ∧ StaysNonneg amount (base + amount a) xs := by
  constructor
  · intro nonneg
    refine ⟨by simpa using nonneg 0, fun n => ?_⟩
    simpa [add_assoc] using nonneg (n + 1)
  · rintro ⟨start, rest⟩ n
    cases n with
    | zero => simpa using start
    | succ n => simpa [add_assoc] using rest n

theorem StaysNonneg.start {amount : α → M} {base : M} {xs : List α} (nonneg : StaysNonneg amount base xs) :
    0 ≤ base := by
  simpa using nonneg 0

theorem StaysNonneg.finish {amount : α → M} {base : M} {xs : List α} (nonneg : StaysNonneg amount base xs) :
    0 ≤ base + total amount xs := by
  simpa using nonneg xs.length

theorem staysNonneg_append {amount : α → M} {base : M} {xs ys : List α} :
    StaysNonneg amount base (xs ++ ys) ↔
      StaysNonneg amount base xs ∧ StaysNonneg amount (base + total amount xs) ys := by
  induction xs generalizing base with
  | nil =>
    rw [List.nil_append, staysNonneg_nil, total_nil, add_zero]
    exact ⟨fun nonneg => ⟨nonneg.start, nonneg⟩, And.right⟩
  | cons a xs ih => rw [List.cons_append, staysNonneg_cons, staysNonneg_cons, ih, total_cons, add_assoc, and_assoc]

/-- What adds nothing can be left out. -/
theorem staysNonneg_filter {amount : α → M} {p : α → Bool} {xs : List α}
    (amountless : ∀ a ∈ xs, ¬ p a → amount a = 0) {base : M} :
    StaysNonneg amount base (xs.filter p) ↔ StaysNonneg amount base xs := by
  induction xs generalizing base with
  | nil => rfl
  | cons a xs ih =>
    obtain ⟨head, tail⟩ := List.forall_mem_cons.mp amountless
    by_cases kept : p a
    · rw [List.filter_cons_of_pos kept, staysNonneg_cons, staysNonneg_cons, ih tail]
    · rw [List.filter_cons_of_neg kept, staysNonneg_cons, head kept, add_zero, ih tail]
      exact ⟨fun nonneg => ⟨nonneg.start, nonneg⟩, And.right⟩

/-- The lowest that the running total gets, the start included. -/
def lowest (amount : α → M) (base : M) : List α → M
  | [] => base
  | a :: xs => min base (lowest amount (base + amount a) xs)

variable [IsOrderedAddMonoid M]

theorem StaysNonneg.mono {amount : α → M} {base base' : M} {xs : List α} (nonneg : StaysNonneg amount base xs)
    (more : base ≤ base') : StaysNonneg amount base' xs :=
  fun n => (nonneg n).trans (add_le_add_left more _)

/-- Taking an amount away at the start is affordable when the lowest running total allows it. -/
theorem le_lowest_iff {amount : α → M} {base c : M} {xs : List α} :
    c ≤ lowest amount base xs ↔ StaysNonneg amount (base - c) xs := by
  induction xs generalizing base with
  | nil => rw [lowest, staysNonneg_nil, sub_nonneg]
  | cons a xs ih => rw [lowest, le_min_iff, ih, staysNonneg_cons, sub_nonneg, add_sub_right_comm]

end RunningSum

import Mathlib.Data.List.MinMax
import Mathlib.Data.List.Nodup
import Mathlib.Order.Basic

namespace Timeline
universe u v
variable {α : Type u} {β : Type v} {κ : Type v}

/-- A cut within a wider cut is the cut alone. -/
theorem filter_filter_of_imp {p q : α → Prop} [DecidablePred p] [DecidablePred q] {xs : List α}
    (weaker : ∀ a ∈ xs, p a → q a) : ((xs.filter fun a => q a).filter fun a => p a) = xs.filter fun a => p a := by
  rw [List.filter_filter]
  refine List.filter_congr fun a member => ?_
  rw [← Bool.decide_and]
  exact decide_eq_decide.mpr ⟨And.left, fun held => ⟨held, weaker a member held⟩⟩

/-- Extending a cut in two steps. -/
theorem takeWhile_append_dropWhile {p q : α → Bool} (weaker : ∀ a, p a → q a) (xs : List α) :
    xs.takeWhile q = xs.takeWhile p ++ (xs.dropWhile p).takeWhile q ∧
      xs.dropWhile q = (xs.dropWhile p).dropWhile q := by
  induction xs with
  | nil => exact ⟨rfl, rfl⟩
  | cons a xs ih =>
    cases early : p a with
    | true => simp [early, weaker a early, ih]
    | false => simp [early]

section Ascending
variable [LinearOrder κ]

/-- A list in ascending order is determined by its elements. -/
theorem eq_of_ascending {xs ys : List κ} (left : xs.Pairwise (· < ·)) (right : ys.Pairwise (· < ·))
    (same : ∀ value, value ∈ xs ↔ value ∈ ys) : xs = ys := by
  have distinct : ∀ {zs : List κ}, zs.Pairwise (· < ·) → zs.Nodup := fun ascending => ascending.imp ne_of_lt
  refine List.Perm.eq_of_pairwise (fun a b _ _ below above => absurd below above.asymm) left right ?_
  exact (List.perm_ext_iff_of_nodup (distinct left) (distinct right)).mpr same

/-- In ascending order, what comes up to an element is what lies up to its place. -/
theorem filter_le_getElem {time : α → κ} {xs : List α} (ascending : xs.Pairwise fun a b => time a < time b) {k : Nat}
    (bound : k < xs.length) : (xs.filter fun a => time a ≤ time xs[k]) = xs.take (k + 1) := by
  induction xs generalizing k with
  | nil => cases bound
  | cons a xs ih =>
    obtain ⟨least, rest⟩ := List.pairwise_cons.mp ascending
    cases k with
    | zero =>
      have noneEarlier : (xs.filter fun b => time b ≤ time a) = [] :=
        List.filter_eq_nil_iff.mpr fun b member => by simpa using least b member
      simp [noneEarlier]
    | succ k =>
      have inside : k < xs.length := Nat.lt_of_succ_lt_succ bound
      have below : time a ≤ time xs[k] := (least _ (List.getElem_mem inside)).le
      simp [below, ih rest inside]

end Ascending

section Dated
variable {f : α → Option β} {time : β → α}

/-- A list of dated values is as sorted as the calendar it was filtered from. -/
theorem map_filterMap_sublist (dated : ∀ a b, f a = some b → time b = a) (xs : List α) :
    ((xs.filterMap f).map time).Sublist xs := by
  induction xs with
  | nil => exact .slnil
  | cons a xs ih =>
    cases found : f a with
    | none =>
      rw [List.filterMap_cons_none found]
      exact ih.cons a
    | some b =>
      rw [List.filterMap_cons_some found, List.map_cons, dated a b found]
      exact ih.cons_cons a

/-- A condition on the dates can be put before or after the map that gives dated values. -/
theorem filter_filterMap (dated : ∀ a b, f a = some b → time b = a) (p : α → Bool) (xs : List α) :
    ((xs.filterMap f).filter fun b => p (time b)) = (xs.filter p).filterMap f := by
  induction xs with
  | nil => rfl
  | cons a xs ih =>
    cases found : f a with
    | none =>
      rw [List.filterMap_cons_none found, ih, List.filter_cons]
      split
      · rw [List.filterMap_cons_none found]
      · rfl
    | some b =>
      rw [List.filterMap_cons_some found, List.filter_cons, List.filter_cons, dated a b found, ih]
      split
      · rw [List.filterMap_cons_some found]
      · rfl

/-- The last value there is, with all the dates without one behind it. -/
theorem filterMap_getLast?_eq_some {xs : List α} {b : β} (last : (xs.filterMap f).getLast? = some b) :
    ∃ front a back, xs = front ++ a :: back ∧ f a = some b ∧ ∀ other ∈ back, f other = none := by
  rw [List.getLast?_filterMap] at last
  obtain ⟨back, a, front, reversed, found, undated⟩ := List.findSome?_eq_some_iff.mp last
  refine ⟨front.reverse, a, back.reverse, ?_, found, fun other member => undated other (List.mem_reverse.mp member)⟩
  rw [← List.reverse_reverse xs, reversed]
  simp

end Dated
end Timeline

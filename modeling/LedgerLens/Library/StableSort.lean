import Mathlib.Data.List.Sort
import Mathlib.Data.Prod.Lex
import Mathlib.Order.Basic

namespace StableSort
universe u v w
variable {α : Type u} {β : Type v} {κ : Type w} [LinearOrder κ]

/-- A stable sort by a key: elements with equal keys keep their order. -/
def sortOn (key : α → κ) (xs : List α) : List α :=
  xs.insertionSort fun a b => key a ≤ key b

instance keyTotal (key : α → κ) : Std.Total (fun a b => key a ≤ key b) :=
  ⟨fun a b => le_total (key a) (key b)⟩

instance keyTrans (key : α → κ) : IsTrans α (fun a b => key a ≤ key b) :=
  ⟨fun _ _ _ first second => le_trans first second⟩

theorem sortOn_perm (key : α → κ) (xs : List α) : (sortOn key xs).Perm xs :=
  List.perm_insertionSort _ xs

@[simp] theorem mem_sortOn {key : α → κ} {xs : List α} {a : α} : a ∈ sortOn key xs ↔ a ∈ xs :=
  List.mem_insertionSort _

theorem sortOn_sorted (key : α → κ) (xs : List α) :
    (sortOn key xs).Pairwise fun a b => key a ≤ key b :=
  List.pairwise_insertionSort _ xs

theorem sortOn_of_sorted {key : α → κ} {xs : List α}
    (sorted : xs.Pairwise fun a b => key a ≤ key b) : sortOn key xs = xs :=
  sorted.insertionSort_eq

/-- A list with ascending keys is what its permutations are sorted to. -/
theorem sortOn_of_perm {key : α → κ} {xs ys : List α} (permuted : ys.Perm xs)
    (ascending : ys.Pairwise fun a b => key a < key b) : sortOn key xs = ys := by
  have sorted : ys.Pairwise fun a b => key a ≤ key b := ascending.imp le_of_lt
  have keys : (ys.map key).Nodup := List.pairwise_map.mpr (ascending.imp ne_of_lt)
  refine ((sortOn_perm key xs).trans permuted.symm).eq_of_pairwise (fun a b left right below above => ?_)
    (sortOn_sorted key xs) sorted
  exact List.inj_on_of_nodup_map keys (permuted.mem_iff.mpr (mem_sortOn.mp left)) right (le_antisymm below above)

/-- With distinct keys the order of the input does not matter. -/
theorem sortOn_congr {key : α → κ} {xs ys : List α} (permuted : xs.Perm ys) (distinct : (xs.map key).Nodup) :
    sortOn key xs = sortOn key ys := by
  have keys : (sortOn key ys).Pairwise fun a b => key a ≠ key b :=
    List.pairwise_map.mp ((((sortOn_perm key ys).trans permuted.symm).map key).nodup_iff.mpr distinct)
  refine sortOn_of_perm ((sortOn_perm key ys).trans permuted.symm) ?_
  exact ((sortOn_sorted key ys).and keys).imp fun both => lt_of_le_of_ne both.1 both.2

theorem sortOn_map (key : β → κ) (f : α → β) (xs : List α) :
    sortOn key (xs.map f) = (sortOn (key ∘ f) xs).map f :=
  (List.map_insertionSort _ _ f xs fun _ _ _ _ => Iff.rfl).symm

private theorem orderedInsert_comm {key : α → κ} {a b : α} (strict : ¬ key a ≤ key b) (xs : List α) :
    (xs.orderedInsert (fun x y => key x ≤ key y) a).orderedInsert (fun x y => key x ≤ key y) b =
      (xs.orderedInsert (fun x y => key x ≤ key y) b).orderedInsert (fun x y => key x ≤ key y) a := by
  have below : key b ≤ key a := (not_le.mp strict).le
  induction xs with
  | nil => simp [strict, below]
  | cons x xs ih =>
    by_cases first : key a ≤ key x
    · simp [first, below, below.trans first, strict]
    · by_cases second : key b ≤ key x
      · simp [first, second, strict]
      · simp [first, second, ih]

private theorem foldr_orderedInsert {key : α → κ} (a : α) (xs acc : List α) :
    (xs.orderedInsert (fun x y => key x ≤ key y) a).foldr
        (List.orderedInsert fun x y => key x ≤ key y) acc =
      (xs.foldr (List.orderedInsert fun x y => key x ≤ key y) acc).orderedInsert
        (fun x y => key x ≤ key y) a := by
  induction xs with
  | nil => rfl
  | cons x xs ih =>
    by_cases before : key a ≤ key x
    · simp [before]
    · simp only [List.orderedInsert_cons, before, if_false, List.foldr_cons, ih]
      exact orderedInsert_comm before _

/-- Sorting a prefix beforehand does not change the outcome of a stable sort. -/
theorem sortOn_append_sorted (key : α → κ) (xs ys : List α) :
    sortOn key (sortOn key xs ++ ys) = sortOn key (xs ++ ys) := by
  unfold sortOn List.insertionSort
  rw [List.foldr_append, List.foldr_append]
  induction xs with
  | nil => rfl
  | cons x xs ih => rw [List.foldr_cons, foldr_orderedInsert, ih, List.foldr_cons]

private theorem filter_orderedInsert {key : α → κ} (p : α → Bool) (a : α) {xs : List α}
    (sorted : xs.Pairwise fun x y => key x ≤ key y) :
    (xs.orderedInsert (fun x y => key x ≤ key y) a).filter p =
      if p a then (xs.filter p).orderedInsert (fun x y => key x ≤ key y) a else xs.filter p := by
  induction xs with
  | nil => by_cases kept : p a <;> simp [kept]
  | cons x xs ih =>
    obtain ⟨least, rest⟩ := List.pairwise_cons.mp sorted
    by_cases before : key a ≤ key x
    · have smallest : ∀ y ∈ (x :: xs).filter p, key a ≤ key y := by
        intro y member
        rcases List.mem_cons.mp (List.mem_of_mem_filter member) with rfl | tail
        · exact before
        · exact before.trans (least y tail)
      have inserted : ((x :: xs).filter p).orderedInsert (fun x y => key x ≤ key y) a =
          a :: (x :: xs).filter p := by
        cases filtered : (x :: xs).filter p with
        | nil => rfl
        | cons y ys =>
          have member : y ∈ (x :: xs).filter p := by
            rw [filtered]
            exact List.mem_cons_self
          exact List.orderedInsert_cons_of_le (fun x y => key x ≤ key y) _ (smallest y member)
      rw [inserted, List.orderedInsert_cons_of_le (fun x y => key x ≤ key y) _ before]
      by_cases kept : p a <;> simp [kept]
    · rw [List.orderedInsert_of_not_le (fun x y => key x ≤ key y) _ before]
      by_cases kept : p a <;> by_cases head : p x <;> simp [kept, head, ih rest, before]

/-- Filtering commutes with a stable sort. -/
theorem filter_sortOn (key : α → κ) (p : α → Bool) (xs : List α) :
    (sortOn key xs).filter p = sortOn key (xs.filter p) := by
  induction xs with
  | nil => rfl
  | cons x xs ih =>
    have step : sortOn key (x :: xs) = (sortOn key xs).orderedInsert (fun a b => key a ≤ key b) x := rfl
    rw [step, filter_orderedInsert p x (sortOn_sorted key xs), ih]
    by_cases kept : p x <;> simp [kept, sortOn]

/-- A cut that keeps every element below a kept one is a prefix of the sorted list. -/
theorem filter_eq_takeWhile {key : α → κ} {p : α → Bool} {xs : List α}
    (sorted : xs.Pairwise fun a b => key a ≤ key b)
    (downward : ∀ a ∈ xs, ∀ b ∈ xs, key a ≤ key b → p b → p a) : xs.filter p = xs.takeWhile p := by
  induction xs with
  | nil => rfl
  | cons x xs ih =>
    obtain ⟨least, rest⟩ := List.pairwise_cons.mp sorted
    have tail := ih rest fun a ha b hb => downward a (List.mem_cons_of_mem _ ha) b (List.mem_cons_of_mem _ hb)
    by_cases kept : p x
    · simp [kept, tail]
    · have nothingKept : xs.filter p = [] := by
        refine List.filter_eq_nil_iff.mpr fun y member held => kept ?_
        exact downward x List.mem_cons_self y (List.mem_cons_of_mem _ member) (least y member) held
      simp [kept, nothingKept]

/-- A sorted list falls apart at a downward cut. -/
theorem sortOn_split {key : α → κ} {p : α → Prop} [DecidablePred p] (downward : ∀ a b, key a ≤ key b → p b → p a)
    (xs : List α) :
    sortOn key xs = sortOn key (xs.filter fun a => p a) ++ sortOn key (xs.filter fun a => ¬ p a) := by
  rw [← filter_sortOn, ← filter_sortOn]
  have sorted := sortOn_sorted key xs
  generalize sortOn key xs = ys at sorted
  induction ys with
  | nil => rfl
  | cons y ys ih =>
    obtain ⟨least, rest⟩ := List.pairwise_cons.mp sorted
    by_cases kept : p y
    · simpa [kept] using ih rest
    · have beyond : ∀ z ∈ ys, ¬ p z := fun z member held => kept (downward y z (least z member) held)
      have early : (ys.filter fun a => p a) = [] :=
        List.filter_eq_nil_iff.mpr fun z member => by simpa using beyond z member
      have late : (ys.filter fun a => ¬ p a) = ys :=
        List.filter_eq_self.mpr fun z member => by simpa using beyond z member
      rw [List.filter_cons_of_neg (by simpa using kept), List.filter_cons_of_pos (by simpa using kept), early, late]
      rfl

/-- An element with a key of its own goes between the smaller and the larger ones. -/
theorem sortOn_insert {key : α → κ} {a : α} {xs ys : List α} (fresh : ∀ b ∈ xs ++ ys, key b ≠ key a) :
    sortOn key (xs ++ a :: ys) =
      (sortOn key (xs ++ ys)).filter (fun b => key b < key a) ++
        a :: (sortOn key (xs ++ ys)).filter (fun b => key a < key b) := by
  have own : ((xs ++ a :: ys).filter fun b => ¬ key b < key a).filter (fun b => key b ≤ key a) = [a] := by
    have others : ∀ zs : List α, (∀ b ∈ zs, key b ≠ key a) →
        ((zs.filter fun b => ¬ key b < key a).filter fun b => key b ≤ key a) = [] := by
      intro zs distinct
      rw [List.filter_filter]
      refine List.filter_eq_nil_iff.mpr fun b member => ?_
      simpa using fun below => lt_of_le_of_ne below (distinct b member)
    obtain ⟨left, right⟩ := List.forall_mem_append.mp fresh
    rw [List.filter_append, List.filter_append, List.filter_cons_of_pos (by simp), List.filter_cons_of_pos (by simp),
      others xs left, others ys right]
    rfl
  have larger : ((xs ++ a :: ys).filter fun b => ¬ key b < key a).filter (fun b => ¬ key b ≤ key a) =
      (xs ++ ys).filter fun b => key a < key b := by
    have same : ∀ b ∈ xs ++ a :: ys,
        (decide (¬ key b ≤ key a) && decide (¬ key b < key a)) = decide (key a < key b) := by
      intro b _
      rw [← Bool.decide_and]
      exact decide_eq_decide.mpr ⟨fun both => not_le.mp both.1, fun above => ⟨not_le.mpr above, not_lt.mpr above.le⟩⟩
    rw [List.filter_filter, List.filter_congr same]
    simp
  have smaller : ((xs ++ a :: ys).filter fun b => key b < key a) = (xs ++ ys).filter fun b => key b < key a := by
    simp
  rw [sortOn_split (p := fun b => key b < key a) (fun _ _ order below => order.trans_lt below), smaller,
    sortOn_split (p := fun b => key b ≤ key a) (fun _ _ order below => order.trans below)
      ((xs ++ a :: ys).filter fun b => ¬ key b < key a), own, larger, filter_sortOn, filter_sortOn]
  rfl

/-- Two lists related pointwise stay related pointwise when sorted, once the keys order related
pairs the same way on both sides. -/
theorem forall₂_sortOn {key : α → κ} {key' : β → κ} {R : α → β → Prop} {xs : List α} {ys : List β}
    (related : List.Forall₂ R xs ys)
    (agree : ∀ a ∈ xs.zip ys, ∀ b ∈ xs.zip ys, key a.1 ≤ key b.1 ↔ key' a.2 ≤ key' b.2) :
    List.Forall₂ R (sortOn key xs) (sortOn key' ys) := by
  have length := related.length_eq
  have left : xs = (xs.zip ys).map Prod.fst := (List.map_fst_zip length.le).symm
  have right : ys = (xs.zip ys).map Prod.snd := (List.map_snd_zip length.ge).symm
  have same : (xs.zip ys).insertionSort (fun a b => key a.1 ≤ key b.1) =
      (xs.zip ys).insertionSort (fun a b => key' a.2 ≤ key' b.2) := by
    have mapped := List.map_insertionSort (fun a b : α × β => key a.1 ≤ key b.1)
      (fun a b => key' a.2 ≤ key' b.2) id (xs.zip ys) agree
    simpa only [List.map_id] using mapped
  have sortedLeft : sortOn key xs = (sortOn (key ∘ Prod.fst) (xs.zip ys)).map Prod.fst := by
    rw [← sortOn_map, ← left]
  have sortedRight : sortOn key' ys = (sortOn (key ∘ Prod.fst) (xs.zip ys)).map Prod.snd := by
    have : sortOn (key ∘ Prod.fst) (xs.zip ys) = sortOn (key' ∘ Prod.snd) (xs.zip ys) := same
    rw [this, ← sortOn_map, ← right]
  rw [sortedLeft, sortedRight, List.forall₂_map_left_iff, List.forall₂_map_right_iff, List.forall₂_same]
  intro pair member
  exact (List.forall₂_iff_zip.mp related).2 (mem_sortOn.mp member)

end StableSort

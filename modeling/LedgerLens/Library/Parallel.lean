import LedgerLens.Library.Checked

namespace Checked
universe u v
variable {ε : Type v} {α β γ δ : Type u} (same : ε → ε → Prop)

/-- Two computations that return related results or fail with errors that count as the same. -/
inductive Parallel (R : α → β → Prop) : Except ε α → Except ε β → Prop
  | ok {a b} (related : R a b) : Parallel R (.ok a) (.ok b)
  | error {e e'} (alike : same e e') : Parallel R (.error e) (.error e')

variable {same} {R : α → β → Prop} {Q : γ → δ → Prop} {x : Except ε α} {y : Except ε β}

theorem Parallel.refl (reflexive : ∀ e, same e e) (x : Except ε α) : Parallel same Eq x x := by
  cases x with
  | ok a => exact .ok rfl
  | error e => exact .error (reflexive e)

theorem Parallel.bind {f : α → Except ε γ} {g : β → Except ε δ} (first : Parallel same R x y)
    (rest : ∀ a b, R a b → Parallel same Q (f a) (g b)) : Parallel same Q (x >>= f) (y >>= g) := by
  cases first with
  | ok related => exact rest _ _ related
  | error failed => exact .error failed

/-- Past a step that both computations take. -/
theorem Parallel.after (x : Except ε α) {f : α → Except ε γ} {g : α → Except ε δ}
    (rest : ∀ a, Parallel Eq Q (f a) (g a)) : Parallel Eq Q (x >>= f) (x >>= g) := by
  cases x with
  | ok a => exact rest a
  | error e => exact .error rfl

theorem Parallel.foldlM {step : α → γ → Except ε α} {step' : β → γ → Except ε β} {xs : List γ}
    (each : ∀ a b c, R a b → Parallel same R (step a c) (step' b c)) {a : α} {b : β} (start : R a b) :
    Parallel same R (xs.foldlM step a) (xs.foldlM step' b) := by
  induction xs generalizing a b with
  | nil => exact .ok start
  | cons c rest ih =>
    rw [List.foldlM_cons, List.foldlM_cons]
    exact (each a b c start).bind fun _ _ related => ih related

/-- A guard that both computations check alike. -/
theorem Parallel.guard {c d : Prop} [Decidable c] [Decidable d] {e e' : ε} (alike : c ↔ d) (failed : same e e')
    (rest : ¬ c → Parallel same R x y) :
    Parallel same R (if c then .error e else x) (if d then .error e' else y) := by
  by_cases holds : c
  · rw [if_pos holds, if_pos (alike.mp holds)]
    exact .error failed
  · rw [if_neg holds, if_neg (mt alike.mpr holds)]
    exact rest holds

/-- What a search finds in related lists. -/
theorem find?_forall₂ {p : α → Bool} {q : β → Bool} {xs : List α} {ys : List β} (related : List.Forall₂ R xs ys)
    (alike : ∀ a b, R a b → p a = q b) : Option.Rel R (xs.find? p) (ys.find? q) := by
  induction related with
  | nil => exact .none
  | @cons a b xs ys head _ ih =>
    rw [List.find?_cons, List.find?_cons, alike a b head]
    split
    · exact .some head
    · exact ih

section Lists
variable {S : γ → δ → Prop} {xs : List γ} {ys : List δ}

theorem Parallel.mapM {f : γ → Except ε α} {g : δ → Except ε β} (related : List.Forall₂ S xs ys)
    (each : ∀ c d, S c d → Parallel same R (f c) (g d)) :
    Parallel same (List.Forall₂ R) (xs.mapM f) (ys.mapM g) := by
  induction related with
  | nil => exact .ok .nil
  | @cons c d xs ys head _ ih =>
    rw [List.mapM_cons, List.mapM_cons]
    exact (each c d head).bind fun _ _ first => ih.bind fun _ _ rest => .ok (.cons first rest)

/-- The same where the elements and the results are related by functions. -/
theorem Parallel.mapM_map {f : γ → Except ε α} {f' : δ → Except ε β} {g : γ → δ} {h : α → β} (xs : List γ)
    (each : ∀ c, Parallel same (fun a b => b = h a) (f c) (f' (g c))) :
    Parallel same (fun as bs => bs = as.map h) (xs.mapM f) ((xs.map g).mapM f') := by
  induction xs with
  | nil => exact .ok rfl
  | cons c xs ih =>
    rw [List.map_cons, List.mapM_cons, List.mapM_cons]
    refine (each c).bind fun a b first => ih.bind fun as bs rest => .ok ?_
    rw [first, rest, List.map_cons]

theorem Parallel.forM {f : γ → Except ε PUnit} {g : δ → Except ε PUnit} (related : List.Forall₂ S xs ys)
    (each : ∀ c d, S c d → Parallel same Eq (f c) (g d)) : Parallel same Eq (xs.forM f) (ys.forM g) := by
  induction related with
  | nil => exact .ok rfl
  | @cons c d xs ys head _ ih => exact (each c d head).bind fun _ _ _ => ih

/-- Folds over related lists. -/
theorem Parallel.foldlM_forall₂ {step : α → γ → Except ε α} {step' : β → δ → Except ε β}
    (related : List.Forall₂ S xs ys)
    (each : ∀ a b c d, R a b → S c d → Parallel same R (step a c) (step' b d)) {a : α} {b : β} (start : R a b) :
    Parallel same R (xs.foldlM step a) (ys.foldlM step' b) := by
  induction related generalizing a b with
  | nil => exact .ok start
  | @cons c d xs ys head _ ih =>
    rw [List.foldlM_cons, List.foldlM_cons]
    exact (each a b c d start head).bind fun _ _ next => ih next

/-- Lists that are sorted by the same keys. -/
theorem Parallel.sortOnM {κ : Type u} [LinearOrder κ] (reflexive : ∀ e, same e e) {key : γ → Except ε κ}
    {key' : δ → Except ε κ} (related : List.Forall₂ S xs ys) (each : ∀ c d, S c d → key c = key' d) :
    Parallel same (List.Forall₂ S) (Checked.sortOnM key xs) (Checked.sortOnM key' ys) := by
  have keys : xs.mapM key = ys.mapM key' := by
    induction related with
    | nil => rfl
    | @cons c d xs ys head _ ih => rw [List.mapM_cons, List.mapM_cons, each c d head, ih]
  rw [Checked.sortOnM, Checked.sortOnM, keys]
  refine (Parallel.refl reflexive _).bind fun keys _ equal => ?_
  subst equal
  have zipped : List.Forall₂ (fun a b : κ × _ => a.1 = b.1 ∧ S a.2 b.2) (keys.zip xs) (keys.zip ys) := by
    clear * - related
    induction related generalizing keys with
    | nil => cases keys <;> exact .nil
    | cons head _ ih =>
      cases keys with
      | nil => exact .nil
      | cons key keys => exact .cons ⟨rfl, head⟩ (ih keys)
  have first : ∀ pair ∈ (keys.zip xs).zip (keys.zip ys), pair.1.1 = pair.2.1 := fun pair member =>
    ((List.forall₂_iff_zip.mp zipped).2 member).1
  have sorted : List.Forall₂ (fun a b : κ × _ => a.1 = b.1 ∧ S a.2 b.2) (StableSort.sortOn Prod.fst (keys.zip xs))
      (StableSort.sortOn Prod.fst (keys.zip ys)) := by
    refine StableSort.forall₂_sortOn zipped fun a left b right => ?_
    rw [first a left, first b right]
  refine .ok (List.forall₂_map_left_iff.mpr (List.forall₂_map_right_iff.mpr (sorted.imp fun _ _ both => both.2)))

end Lists

/-- Computations that succeed together, and whose errors all count as the same, are alike. -/
theorem Parallel.of_isOk {P : ε → Prop} (together : x.isOk ↔ y.isOk) (left : OnlyRaises P x) (right : OnlyRaises P y)
    (alike : ∀ e e', P e → P e' → same e e') (related : ∀ a b, x = .ok a → y = .ok b → R a b) :
    Parallel same R x y := by
  cases run : x with
  | ok a =>
    obtain ⟨b, run'⟩ := exists_of_isOk (together.mp (run ▸ rfl))
    rw [run']
    exact .ok (related a b run run')
  | error e =>
    cases run' : y with
    | ok b => exact absurd (together.mpr (run' ▸ rfl)) (by simp [run, Except.isOk, Except.toBool])
    | error e' => exact .error (alike e e' (left e run) (right e' run'))

end Checked

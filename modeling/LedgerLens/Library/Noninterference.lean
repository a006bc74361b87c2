import Mathlib.Data.List.Basic

universe u v w x y

/-- A machine that answers the calls of several users. -/
structure Machine (υ : Type u) (σ : Type v) (κ : Type w) (ο : Type x) where
  owner : κ → υ
  step : κ → σ → ο × σ

namespace Machine
variable {υ : Type u} {σ : Type v} {κ : Type w} {ο : Type x} {V : Type y} [DecidableEq υ]

/-- What one user is answered along a sequence of calls. -/
def observations (M : Machine υ σ κ ο) (user : υ) : List κ → σ → List ο
  | [], _ => []
  | call :: rest, s =>
    if M.owner call = user then (M.step call s).1 :: M.observations user rest (M.step call s).2
    else M.observations user rest (M.step call s).2

/-- The calls of one user. -/
def own (M : Machine υ σ κ ο) (user : υ) (calls : List κ) : List κ :=
  calls.filter fun call => M.owner call = user

/-- The unwinding conditions for a view of the state, under a condition on the calls ahead. -/
structure Unwinding (M : Machine υ σ κ ο) (view : υ → σ → V) (Admissible : List κ → σ → Prop) : Prop where
  tail : ∀ call rest s, Admissible (call :: rest) s → Admissible rest (M.step call s).2
  respects : ∀ user call s, M.owner call ≠ user → view user (M.step call s).2 = view user s
  answer : ∀ call rest other s t, Admissible (call :: rest) s → Admissible (call :: other) t →
    view (M.owner call) s = view (M.owner call) t → (M.step call s).1 = (M.step call t).1
  consistent : ∀ call rest other s t, Admissible (call :: rest) s → Admissible (call :: other) t →
    view (M.owner call) s = view (M.owner call) t →
      view (M.owner call) (M.step call s).2 = view (M.owner call) (M.step call t).2

/-- A user cannot tell a run from the run with all calls of the other users taken out. -/
theorem Unwinding.observations_own {M : Machine υ σ κ ο} {view : υ → σ → V} {Admissible : List κ → σ → Prop}
    (unwinding : Unwinding M view Admissible) {user : υ} {calls : List κ} {s t : σ}
    (same : view user s = view user t) (left : Admissible calls s) (right : Admissible (M.own user calls) t) :
    M.observations user calls s = M.observations user (M.own user calls) t := by
  induction calls generalizing s t with
  | nil => rfl
  | cons call rest ih =>
    have tail := unwinding.tail call rest s left
    by_cases mine : M.owner call = user
    · have kept : M.own user (call :: rest) = call :: M.own user rest := by simp [own, mine]
      rw [kept] at right ⊢
      subst mine
      have answer := unwinding.answer call rest _ s t left right same
      have next := unwinding.consistent call rest _ s t left right same
      simp only [observations, if_true]
      rw [answer, ih next tail (unwinding.tail call _ t right)]
    · have dropped : M.own user (call :: rest) = M.own user rest := by simp [own, mine]
      rw [dropped] at right ⊢
      simp only [observations, if_neg mine]
      exact ih ((unwinding.respects user call s mine).trans same) tail right

/-- What relates a run to the run without the calls of the other users: their calls do not end it, and over one's
own it gives one answer. It may speak of the calls ahead. -/
structure Purge (M : Machine υ σ κ ο) (user : υ) (R : List κ → σ → σ → Prop) : Prop where
  other : ∀ call rest s t, M.owner call ≠ user → R (call :: rest) s t → R rest (M.step call s).2 t
  own : ∀ call rest s t, M.owner call = user → R (call :: rest) s t →
    (M.step call s).1 = (M.step call t).1 ∧ R rest (M.step call s).2 (M.step call t).2

/-- A user cannot tell related runs apart, though the second has the user's own calls only. -/
theorem Purge.observations_own {M : Machine υ σ κ ο} {user : υ} {R : List κ → σ → σ → Prop} (purge : Purge M user R)
    {calls : List κ} {s t : σ} (related : R calls s t) :
    M.observations user calls s = M.observations user (M.own user calls) t := by
  induction calls generalizing s t with
  | nil => rfl
  | cons call rest ih =>
    by_cases mine : M.owner call = user
    · obtain ⟨answer, next⟩ := purge.own call rest s t mine related
      have kept : M.own user (call :: rest) = call :: M.own user rest := by simp [Machine.own, mine]
      rw [kept]
      simp only [observations, if_pos mine]
      rw [answer, ih next]
    · have dropped : M.own user (call :: rest) = M.own user rest := by simp [Machine.own, mine]
      rw [dropped]
      simp only [observations, if_neg mine]
      exact ih (purge.other call rest s t mine related)

end Machine

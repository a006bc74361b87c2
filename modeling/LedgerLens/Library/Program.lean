import Mathlib.Order.Defs.Unbundled
import Mathlib.Tactic.Common

universe u

/-- A stateful computation that can raise. What it did to the state before raising stays done. -/
structure Program (σ ε α : Type u) where
  run : σ → Except ε α × σ

namespace Program
variable {σ ε α β : Type u}

instance : Monad (Program σ ε) where
  pure a := ⟨fun s => (.ok a, s)⟩
  bind x f := ⟨fun s =>
    match x.run s with
    | (.ok a, next) => (f a).run next
    | (.error e, next) => (.error e, next)⟩

def raise (e : ε) : Program σ ε α := ⟨fun s => (.error e, s)⟩

/-- A computation that does not touch the state. -/
def lift (x : Except ε α) : Program σ ε α := ⟨fun s => (x, s)⟩

def read (f : σ → α) : Program σ ε α := ⟨fun s => (.ok (f s), s)⟩

def modify (f : σ → σ) : Program σ ε PUnit := ⟨fun s => (.ok ⟨⟩, f s)⟩

/-- `try`: the exception becomes a value, and the state is kept as the computation left it. -/
def attempt (x : Program σ ε α) : Program σ ε (Except ε α) := ⟨fun s => (.ok (x.run s).1, (x.run s).2)⟩

/-- Run a computation for each element in order and collect the results; an exception stops. -/
def collect (f : α → Program σ ε β) : List α → Program σ ε (List β)
  | [] => pure []
  | a :: rest => do
    let b ← f a
    let bs ← collect f rest
    return b :: bs

/-- The results of a traversal up to its first exception. -/
def collected (f : α → Program σ ε β) : List α → σ → List β
  | [], _ => []
  | a :: rest, s =>
    match (f a).run s with
    | (.ok b, next) => b :: collected f rest next
    | (.error _, _) => []

@[simp] theorem pure_run (a : α) (s : σ) : (pure a : Program σ ε α).run s = (.ok a, s) := rfl
@[simp] theorem raise_run (e : ε) (s : σ) : (raise e : Program σ ε α).run s = (.error e, s) := rfl
@[simp] theorem lift_run (x : Except ε α) (s : σ) : (lift x : Program σ ε α).run s = (x, s) := rfl
@[simp] theorem read_run (f : σ → α) (s : σ) : (read f : Program σ ε α).run s = (.ok (f s), s) := rfl
@[simp] theorem modify_run (f : σ → σ) (s : σ) : (modify f : Program σ ε PUnit).run s = (.ok ⟨⟩, f s) := rfl
@[simp] theorem attempt_run (x : Program σ ε α) (s : σ) : x.attempt.run s = (.ok (x.run s).1, (x.run s).2) := rfl

theorem bind_run (x : Program σ ε α) (f : α → Program σ ε β) (s : σ) :
    (x >>= f).run s =
      match x.run s with
      | (.ok a, next) => (f a).run next
      | (.error e, next) => (.error e, next) := rfl

theorem bind_ok {x : Program σ ε α} {s next : σ} {a : α} (first : x.run s = (.ok a, next))
    (f : α → Program σ ε β) : (x >>= f).run s = (f a).run next := by
  rw [bind_run, first]

theorem bind_error {x : Program σ ε α} {s next : σ} {e : ε} (first : x.run s = (.error e, next))
    (f : α → Program σ ε β) : (x >>= f).run s = (.error e, next) := by
  rw [bind_run, first]

theorem bind_eq_ok {x : Program σ ε α} {f : α → Program σ ε β} {s final : σ} {b : β} :
    (x >>= f).run s = (.ok b, final) ↔ ∃ a next, x.run s = (.ok a, next) ∧ (f a).run next = (.ok b, final) := by
  rw [bind_run]
  match x.run s with
  | (.ok a, next) => simp
  | (.error e, next) => simp

/-- A traversal ends where its first element raises, or where the rest of it ends. -/
theorem collect_cons_state (f : α → Program σ ε β) (a : α) (rest : List α) (s : σ) :
    ((collect f (a :: rest)).run s).2 =
      match (f a).run s with
      | (.ok _, next) => ((collect f rest).run next).2
      | (.error _, next) => next := by
  change (Program.run (f a >>= fun b => collect f rest >>= fun bs => pure (b :: bs)) s).2 = _
  rw [bind_run]
  match (f a).run s with
  | (.error e, next) => rfl
  | (.ok b, next) =>
    simp only [bind_run]
    match (collect f rest).run next with
    | (.error e, final) => rfl
    | (.ok bs, final) => rfl

theorem collected_cons_ok {f : α → Program σ ε β} {a : α} {b : β} {s next : σ} (first : (f a).run s = (.ok b, next))
    (rest : List α) : collected f (a :: rest) s = b :: collected f rest next := by
  rw [collected, first]

theorem collected_cons_error {f : α → Program σ ε β} {a : α} {e : ε} {s next : σ}
    (first : (f a).run s = (.error e, next)) (rest : List α) : collected f (a :: rest) s = [] := by
  rw [collected, first]

/-- A traversal that returns has come to its last element. -/
theorem collected_of_collect {f : α → Program σ ε β} {xs : List α} {bs : List β} {s final : σ}
    (run : (collect f xs).run s = (.ok bs, final)) : collected f xs s = bs := by
  induction xs generalizing s bs final with
  | nil => exact Except.ok.inj (congrArg Prod.fst run)
  | cons a rest ih =>
    obtain ⟨b, next, first, run⟩ := bind_eq_ok.mp run
    obtain ⟨later, _, run, result⟩ := bind_eq_ok.mp run
    rw [collected_cons_ok first, ih run]
    exact Except.ok.inj (congrArg Prod.fst result)

@[simp] theorem map_run (f : α → β) (x : Program σ ε α) (s : σ) :
    (f <$> x).run s = ((x.run s).1.map f, (x.run s).2) := by
  change (x >>= fun a => pure (f a)).run s = _
  rw [bind_run]
  match x.run s with
  | (.ok a, next) => rfl
  | (.error e, next) => rfl

theorem map_eq_ok {f : α → β} {x : Program σ ε α} {s final : σ} {b : β}
    (run : (f <$> x).run s = (.ok b, final)) : ∃ a, x.run s = (.ok a, final) ∧ b = f a := by
  rw [map_run] at run
  match outcome : x.run s with
  | (.error e, next) =>
    rw [outcome] at run
    cases congrArg Prod.fst run
  | (.ok a, next) =>
    rw [outcome] at run
    cases run
    exact ⟨a, rfl, rfl⟩

theorem bind_assoc {γ : Type u} (x : Program σ ε α) (f : α → Program σ ε β) (g : β → Program σ ε γ) :
    (x >>= f) >>= g = x >>= fun a => f a >>= g := by
  change Program.mk _ = Program.mk _
  refine congrArg Program.mk (funext fun s => ?_)
  match first : x.run s with
  | (.ok a, next) => simp only [bind_run, first]
  | (.error e, next) => simp only [bind_run, first]

/-- Every run, finished or not, moves the state along the relation. -/
structure Preserves (R : σ → σ → Prop) (x : Program σ ε α) : Prop where
  step : ∀ s, R s (x.run s).2

section Preserves
variable {R : σ → σ → Prop}

theorem Preserves.mono {S : σ → σ → Prop} {x : Program σ ε α} (kept : Preserves R x)
    (weaker : ∀ s t, R s t → S s t) : Preserves S x :=
  ⟨fun s => weaker _ _ (kept.step s)⟩

theorem Preserves.pure [Std.Refl R] (a : α) : Preserves R (Pure.pure a : Program σ ε α) :=
  ⟨fun s => Std.Refl.refl s⟩

theorem Preserves.raise [Std.Refl R] (e : ε) : Preserves R (Program.raise e : Program σ ε α) :=
  ⟨fun s => Std.Refl.refl s⟩

theorem Preserves.lift [Std.Refl R] (x : Except ε α) : Preserves R (Program.lift x : Program σ ε α) :=
  ⟨fun s => Std.Refl.refl s⟩

theorem Preserves.read [Std.Refl R] (f : σ → α) : Preserves R (Program.read f : Program σ ε α) :=
  ⟨fun s => Std.Refl.refl s⟩

theorem Preserves.attempt {x : Program σ ε α} (kept : Preserves R x) : Preserves R x.attempt :=
  ⟨kept.step⟩

theorem Preserves.map {x : Program σ ε α} (kept : Preserves R x) (f : α → β) : Preserves R (f <$> x) := by
  refine ⟨fun s => ?_⟩
  rw [map_run]
  exact kept.step s

theorem Preserves.bind [IsTrans σ R] {x : Program σ ε α} {f : α → Program σ ε β} (first : Preserves R x)
    (rest : ∀ a, Preserves R (f a)) : Preserves R (x >>= f) := by
  refine ⟨fun s => ?_⟩
  have step := first.step s
  rw [bind_run]
  match run : x.run s with
  | (.ok a, next) =>
    rw [run] at step
    exact IsTrans.trans _ _ _ step ((rest a).step next)
  | (.error e, next) =>
    rw [run] at step
    exact step

theorem Preserves.collect [Std.Refl R] [IsTrans σ R] {f : α → Program σ ε β} (each : ∀ a, Preserves R (f a))
    (xs : List α) : Preserves R (collect f xs) := by
  induction xs with
  | nil => exact .pure []
  | cons a rest ih => exact (each a).bind fun b => ih.bind fun bs => .pure _

end Preserves

/-- From related states a computation gives one result, and it leaves the states related. -/
structure Respects (R : σ → σ → Prop) (x : Program σ ε α) : Prop where
  result : ∀ s t, R s t → (x.run s).1 = (x.run t).1
  state : ∀ s t, R s t → R (x.run s).2 (x.run t).2

section Respects
variable {R : σ → σ → Prop}

theorem Respects.lift (x : Except ε α) : Respects R (Program.lift x : Program σ ε α) :=
  ⟨fun _ _ _ => rfl, fun _ _ related => related⟩

theorem Respects.pure (a : α) : Respects R (Pure.pure a : Program σ ε α) := .lift (.ok a)

theorem Respects.raise (e : ε) : Respects R (Program.raise e : Program σ ε α) := .lift (.error e)

theorem Respects.read {f : σ → α} (same : ∀ s t, R s t → f s = f t) : Respects R (Program.read f : Program σ ε α) :=
  ⟨fun s t related => congrArg Except.ok (same s t related), fun _ _ related => related⟩

theorem Respects.modify {f : σ → σ} (kept : ∀ s t, R s t → R (f s) (f t)) :
    Respects R (Program.modify f : Program σ ε PUnit) :=
  ⟨fun _ _ _ => rfl, kept⟩

theorem Respects.attempt {x : Program σ ε α} (same : Respects R x) : Respects R x.attempt :=
  ⟨fun s t related => congrArg Except.ok (same.result s t related), same.state⟩

theorem Respects.map {x : Program σ ε α} (same : Respects R x) (f : α → β) : Respects R (f <$> x) := by
  constructor
  · intro s t related
    rw [map_run, map_run]
    exact congrArg (Except.map f) (same.result s t related)
  · intro s t related
    rw [map_run, map_run]
    exact same.state s t related

/-- A check whose success establishes a fact hands that fact to the rest. -/
theorem Respects.guard {P : σ → Prop} {x : Program σ ε α} {f : α → Program σ ε β} (first : Respects R x)
    (checked : ∀ s a next, x.run s = (.ok a, next) → P next)
    (rest : ∀ a, Respects (fun s t => R s t ∧ P s) (f a)) : Respects R (x >>= f) := by
  have both : ∀ s t, R s t → ((x >>= f).run s).1 = ((x >>= f).run t).1 ∧
      R ((x >>= f).run s).2 ((x >>= f).run t).2 := by
    intro s t related
    have result := first.result s t related
    have state := first.state s t related
    rw [bind_run, bind_run]
    match left : x.run s, right : x.run t with
    | (.ok a, s'), (.ok b, t') =>
      rw [left, right] at result state
      cases Except.ok.inj result
      have known := checked s a s' left
      exact ⟨(rest a).result s' t' ⟨state, known⟩, ((rest a).state s' t' ⟨state, known⟩).1⟩
    | (.error d, s'), (.error e, t') =>
      rw [left, right] at result state
      cases Except.error.inj result
      exact ⟨rfl, state⟩
    | (.ok a, s'), (.error e, t') | (.error e, s'), (.ok a, t') =>
      rw [left, right] at result
      cases result
  exact ⟨fun s t related => (both s t related).1, fun s t related => (both s t related).2⟩

theorem Respects.bind {x : Program σ ε α} {f : α → Program σ ε β} (first : Respects R x)
    (rest : ∀ a, Respects R (f a)) : Respects R (x >>= f) := by
  refine first.guard (P := fun _ => True) (fun _ _ _ _ => trivial) fun a => ?_
  simpa only [and_true] using rest a

theorem Respects.collect {f : α → Program σ ε β} (each : ∀ a, Respects R (f a)) (xs : List α) :
    Respects R (collect f xs) := by
  induction xs with
  | nil => exact .pure []
  | cons a rest ih => exact (each a).bind fun b => ih.bind fun bs => .pure _

end Respects
end Program

import LedgerLens.Library.Program

namespace Program
universe u v
variable {σ τ ε δ α β γ : Type u}

/-- Two computations over different states and exceptions, started in these two states: they answer
alike, the exceptions of the one read as those of the other, and they end in related states. -/
structure Simulates (raised : ε → δ) (R : σ → τ → Prop) (x : Program σ ε α) (y : Program τ δ α) (s : σ) (t : τ) :
    Prop where
  answer : (y.run t).1 = (x.run s).1.mapError raised
  state : R (x.run s).2 (y.run t).2

namespace Simulates
variable {raised : ε → δ} {Q R : σ → τ → Prop} {x : Program σ ε α} {y : Program τ δ α} {s s' : σ} {t t' : τ}

theorem mono (simulates : Simulates raised Q x y s t) (weaker : ∀ s t, Q s t → R s t) :
    Simulates raised R x y s t :=
  ⟨simulates.answer, weaker _ _ simulates.state⟩

theorem pure (a : α) (related : R s t) :
    Simulates raised R (Pure.pure a : Program σ ε α) (Pure.pure a : Program τ δ α) s t :=
  ⟨rfl, related⟩

theorem raise (e : ε) (related : R s t) :
    Simulates raised R (Program.raise e : Program σ ε α) (Program.raise (raised e) : Program τ δ α) s t :=
  ⟨rfl, related⟩

/-- Computations that only look at their states. -/
theorem of_run {result : Except ε α} (left : x.run s = (result, s')) (right : y.run t = (result.mapError raised, t'))
    (related : R s' t') : Simulates raised R x y s t := by
  refine ⟨?_, ?_⟩
  · rw [left, right]
  · rw [left, right]
    exact related

theorem bind {f : α → Program σ ε β} {g : α → Program τ δ β} (first : Simulates raised Q x y s t)
    (failed : ∀ e s' t', x.run s = (.error e, s') → Q s' t' → R s' t')
    (rest : ∀ a s' t', x.run s = (.ok a, s') → Q s' t' → Simulates raised R (f a) (g a) s' t') :
    Simulates raised R (x >>= f) (y >>= g) s t := by
  obtain ⟨answer, state⟩ := first
  rcases left : x.run s with ⟨e | a, s'⟩
  · rcases right : y.run t with ⟨answered, t'⟩
    rw [left, right] at answer state
    cases answer
    exact of_run (bind_error left f) (bind_error right g) (failed e s' t' left state)
  · rcases right : y.run t with ⟨answered, t'⟩
    rw [left, right] at answer state
    cases answer
    have later := rest a s' t' left state
    refine ⟨?_, ?_⟩
    · rw [bind_ok left, bind_ok right]
      exact later.answer
    · rw [bind_ok left, bind_ok right]
      exact later.state

/-- The same relation all along. -/
theorem andThen {f : α → Program σ ε β} {g : α → Program τ δ β} (first : Simulates raised R x y s t)
    (rest : ∀ a s' t', x.run s = (.ok a, s') → R s' t' → Simulates raised R (f a) (g a) s' t') :
    Simulates raised R (x >>= f) (y >>= g) s t :=
  first.bind (fun _ _ _ _ related => related) rest

/-- Past a step that finds the same on both sides and changes neither. -/
theorem after {a : α} {f : α → Program σ ε β} {g : α → Program τ δ β} (left : x.run s = (.ok a, s))
    (right : y.run t = (.ok a, t)) (rest : Simulates raised R (f a) (g a) s t) :
    Simulates raised R (x >>= f) (y >>= g) s t := by
  refine ⟨?_, ?_⟩
  · rw [bind_ok left, bind_ok right]
    exact rest.answer
  · rw [bind_ok left, bind_ok right]
    exact rest.state

/-- Past a decision that both sides make, and that can raise. -/
theorem decided {result : Except ε α} {f : α → Program σ ε β} {g : α → Program τ δ β}
    (left : x.run s = (result, s)) (right : y.run t = (result.mapError raised, t)) (related : R s t)
    (rest : ∀ a, result = .ok a → Simulates raised R (f a) (g a) s t) : Simulates raised R (x >>= f) (y >>= g) s t := by
  cases result with
  | error e => exact of_run (bind_error left f) (bind_error right g) related
  | ok a => exact after left right (rest a rfl)

theorem map (simulates : Simulates raised R x y s t) (f : α → β) : Simulates raised R (f <$> x) (f <$> y) s t := by
  refine ⟨?_, ?_⟩
  · rw [map_run, map_run, simulates.answer]
    cases (x.run s).1 <;> rfl
  · rw [map_run, map_run]
    exact simulates.state

/-- After `try`, both sides look at what was raised. -/
theorem attempt_bind {f : Except ε α → Program σ ε β} {g : Except δ α → Program τ δ β}
    (first : Simulates raised R x y s t)
    (rest : ∀ result s' t', x.run s = (result, s') → R s' t' →
      Simulates raised R (f result) (g (result.mapError raised)) s' t') :
    Simulates raised R (x.attempt >>= f) (y.attempt >>= g) s t := by
  have later := rest (x.run s).1 (x.run s).2 (y.run t).2 rfl first.state
  rw [← first.answer] at later
  refine ⟨?_, ?_⟩
  · rw [bind_ok (attempt_run x s), bind_ok (attempt_run y t)]
    exact later.answer
  · rw [bind_ok (attempt_run x s), bind_ok (attempt_run y t)]
    exact later.state

/-- A loop, with a relation that says what the rest of it may still rely on. -/
theorem collect {f : α → Program σ ε β} {g : α → Program τ δ β} (P : List α → σ → τ → Prop)
    (dropped : ∀ a rest s t, P (a :: rest) s t → P rest s t)
    (each : ∀ a rest s t, P (a :: rest) s t → Simulates raised (P rest) (f a) (g a) s t) {xs : List α}
    (related : P xs s t) : Simulates raised (P []) (Program.collect f xs) (Program.collect g xs) s t := by
  have finished : ∀ rest s t, P rest s t → P [] s t := by
    intro rest
    induction rest with
    | nil => exact fun _ _ related => related
    | cons a rest ih => exact fun s t related => ih s t (dropped a rest s t related)
  induction xs generalizing s t with
  | nil => exact .pure [] related
  | cons a rest ih =>
    refine (each a rest s t related).bind (fun _ _ _ _ later => finished rest _ _ later) fun b s' t' _ later => ?_
    exact (ih later).andThen fun bs _ _ _ done => .pure (b :: bs) done

end Simulates

section Sequences
variable {ι : Type v}

/-- What a sequence of computations answers, each going on from where the one before it ended, and where
the last one ends. -/
def outcomes (f : ι → Program σ ε α) : List ι → σ → List (Except ε α) × σ
  | [], s => ([], s)
  | i :: rest, s =>
    let (answer, next) := (f i).run s
    let (answers, final) := outcomes f rest next
    (answer :: answers, final)

/-- Simulations one after the other, each with what the rest of the sequence relies on. -/
theorem Simulates.outcomes {raised : ε → δ} {f : ι → Program σ ε α} {g : ι → Program τ δ α}
    (P : List ι → σ → τ → Prop)
    (each : ∀ i rest s t, P (i :: rest) s t → Simulates raised (P rest) (f i) (g i) s t) (is : List ι) {s : σ} {t : τ}
    (related : P is s t) :
    (outcomes g is t).1 = (outcomes f is s).1.map (Except.mapError raised) ∧
      P [] (outcomes f is s).2 (outcomes g is t).2 := by
  induction is generalizing s t with
  | nil => exact ⟨rfl, related⟩
  | cons i rest ih =>
    obtain ⟨answer, state⟩ := each i rest s t related
    obtain ⟨answers, final⟩ := ih state
    refine ⟨?_, final⟩
    change _ :: _ = _ :: _
    rw [answer, answers]

end Sequences
end Program

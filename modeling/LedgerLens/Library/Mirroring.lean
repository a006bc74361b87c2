import LedgerLens.Library.Parallel
import LedgerLens.Library.Simulation

namespace Program
universe u
variable {σ τ ε α β γ δ : Type u}

/-- Two computations, started in these two states: they raise the same or return related answers, and they end in
related states. -/
structure Mirrors (R : σ → τ → Prop) (Q : α → β → Prop) (x : Program σ ε α) (y : Program τ ε β) (s : σ) (t : τ) :
    Prop where
  answer : Checked.Parallel Eq Q (x.run s).1 (y.run t).1
  state : R (x.run s).2 (y.run t).2

namespace Mirrors
variable {R : σ → τ → Prop} {Q : α → β → Prop} {P : γ → δ → Prop} {x : Program σ ε α} {y : Program τ ε β} {s : σ}
  {t : τ}

theorem lift {result : Except ε α} {result' : Except ε β} (parallel : Checked.Parallel Eq Q result result')
    (related : R s t) : Mirrors R Q (Program.lift result) (Program.lift result') s t :=
  ⟨parallel, related⟩

/-- A decision that both sides make. -/
theorem decided (result : Except ε α) (related : R s t) :
    Mirrors R Eq (Program.lift result) (Program.lift result) s t :=
  ⟨.refl (fun _ => rfl) result, related⟩

theorem pure {a : α} {b : β} (answers : Q a b) (related : R s t) :
    Mirrors R Q (Pure.pure a : Program σ ε α) (Pure.pure b : Program τ ε β) s t :=
  ⟨.ok answers, related⟩

theorem raise (e : ε) (related : R s t) :
    Mirrors R Q (Program.raise e : Program σ ε α) (Program.raise e : Program τ ε β) s t :=
  ⟨.error rfl, related⟩

theorem read {f : σ → α} {g : τ → β} (answers : Q (f s) (g t)) (related : R s t) :
    Mirrors R Q (Program.read f : Program σ ε α) (Program.read g : Program τ ε β) s t :=
  ⟨.ok answers, related⟩

theorem modify {f : σ → σ} {g : τ → τ} (related : R (f s) (g t)) :
    Mirrors R Eq (Program.modify f : Program σ ε PUnit) (Program.modify g : Program τ ε PUnit) s t :=
  ⟨.ok rfl, related⟩

theorem attempt (mirrors : Mirrors R Q x y s t) :
    Mirrors R (Checked.Parallel Eq Q) x.attempt y.attempt s t :=
  ⟨.ok mirrors.answer, mirrors.state⟩

theorem bind {f : α → Program σ ε γ} {g : β → Program τ ε δ} (first : Mirrors R Q x y s t)
    (rest : ∀ a b s' t', Q a b → R s' t' → Mirrors R P (f a) (g b) s' t') :
    Mirrors R P (x >>= f) (y >>= g) s t := by
  obtain ⟨answer, state⟩ := first
  rcases left : x.run s with ⟨result, s'⟩
  rcases right : y.run t with ⟨result', t'⟩
  rw [left, right] at answer state
  cases answer with
  | ok answers =>
    obtain ⟨later, final⟩ := rest _ _ s' t' answers state
    refine ⟨?_, ?_⟩
    · rw [bind_ok left, bind_ok right]
      exact later
    · rw [bind_ok left, bind_ok right]
      exact final
  | error raised =>
    refine ⟨?_, ?_⟩
    · rw [bind_error left, bind_error right]
      exact .error raised
    · rw [bind_error left, bind_error right]
      exact state

theorem map {f : α → γ} {g : β → δ} (mirrors : Mirrors R Q x y s t) (each : ∀ a b, Q a b → P (f a) (g b)) :
    Mirrors R P (f <$> x) (g <$> y) s t := by
  obtain ⟨answer, state⟩ := mirrors
  refine ⟨?_, ?_⟩
  · rw [map_run, map_run]
    generalize (x.run s).1 = result, (y.run t).1 = result' at answer
    cases answer with
    | ok related => exact .ok (each _ _ related)
    | error raised => exact .error raised
  · rw [map_run, map_run]
    exact state

/-- Past a look at the states that finds the same in both. -/
theorem looked {ι : Type u} {f : σ → ι} {f' : τ → ι} {g : ι → Program σ ε γ} {g' : ι → Program τ ε δ}
    (found : f' t = f s) (rest : ∀ a, Mirrors R P (g a) (g' a) s t) :
    Mirrors R P (Program.read f >>= g) (Program.read f' >>= g') s t := by
  have later := rest (f s)
  refine ⟨?_, ?_⟩
  · rw [bind_ok (read_run f s), bind_ok (read_run f' t), found]
    exact later.answer
  · rw [bind_ok (read_run f s), bind_ok (read_run f' t), found]
    exact later.state

/-- Computations one after the other, which mirror each other pair by pair. -/
theorem outcomes {ι κ : Type*} {f : ι → Program σ ε α} {g : κ → Program τ ε β} {S : ι → κ → Prop} {is : List ι}
    {js : List κ} (related : List.Forall₂ S is js)
    (each : ∀ i j s t, S i j → R s t → Mirrors R Q (f i) (g j) s t) (start : R s t) :
    List.Forall₂ (Checked.Parallel Eq Q) (Program.outcomes f is s).1 (Program.outcomes g js t).1 ∧
      R (Program.outcomes f is s).2 (Program.outcomes g js t).2 := by
  induction related generalizing s t with
  | nil => exact ⟨.nil, start⟩
  | @cons i j is js head _ ih =>
    obtain ⟨answer, state⟩ := each i j s t head start
    obtain ⟨answers, final⟩ := ih state
    exact ⟨.cons answer answers, final⟩

end Mirrors
end Program

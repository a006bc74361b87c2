import LedgerLens.Library.StableSort

namespace Checked
universe u v
variable {ε : Type v} {α β γ : Type u}

theorem bind_eq_ok {x : Except ε α} {f : α → Except ε β} {b : β} :
    (x >>= f) = .ok b ↔ ∃ a, x = .ok a ∧ f a = .ok b := by
  cases x <;> simp [bind, Except.bind]

theorem ok_bind (a : α) (f : α → Except ε β) : ((.ok a : Except ε α) >>= f) = f a := rfl

theorem error_bind (e : ε) (f : α → Except ε β) : ((.error e : Except ε α) >>= f) = .error e := rfl

@[simp] theorem pure_eq_ok {a b : α} : (pure a : Except ε α) = .ok b ↔ a = b := by
  simp [pure, Except.pure]

theorem map_eq_ok {x : Except ε α} {f : α → β} {b : β} :
    (f <$> x) = .ok b ↔ ∃ a, x = .ok a ∧ f a = b := by
  cases x <;> simp [Functor.map, Except.map]

theorem exists_of_isOk {x : Except ε α} (returned : x.isOk) : ∃ a, x = .ok a := by
  cases x with
  | error => cases returned
  | ok a => exact ⟨a, rfl⟩

theorem isOk_iff {x : Except ε α} : x.isOk ↔ ∃ a, x = .ok a := by
  refine ⟨exists_of_isOk, ?_⟩
  rintro ⟨a, rfl⟩
  rfl

/-- A guard that raises lets a computation through exactly when it does not hold. -/
theorem guard_eq_ok {c : Prop} [Decidable c] {e : ε} {x : Except ε α} {a : α} :
    (if c then .error e else x) = .ok a ↔ ¬ c ∧ x = .ok a := by
  by_cases raised : c <;> simp [raised]

/-- Checking every element in order succeeds exactly when each check does. -/
theorem forM_eq_ok {check : α → Except ε PUnit} {xs : List α} :
    xs.forM check = .ok ⟨⟩ ↔ ∀ a ∈ xs, check a = .ok ⟨⟩ := by
  induction xs with
  | nil => simp
  | cons a xs ih =>
    have unfold_cons : (a :: xs).forM check = (check a >>= fun _ => xs.forM check) := rfl
    rw [unfold_cons, bind_eq_ok, List.forall_mem_cons, ← ih]
    exact ⟨fun ⟨_, head, tail⟩ => ⟨head, tail⟩, fun ⟨head, tail⟩ => ⟨_, head, tail⟩⟩

theorem foldlM_cons_eq_ok {step : β → α → Except ε β} {a : α} {xs : List α} {b c : β} :
    (a :: xs).foldlM step b = .ok c ↔ ∃ next, step b a = .ok next ∧ xs.foldlM step next = .ok c := by
  rw [List.foldlM_cons, bind_eq_ok]

theorem foldlM_append_eq_ok {step : β → α → Except ε β} {xs ys : List α} {b c : β} :
    (xs ++ ys).foldlM step b = .ok c ↔
      ∃ middle, xs.foldlM step b = .ok middle ∧ ys.foldlM step middle = .ok c := by
  induction xs generalizing b with
  | nil => simp
  | cons a xs ih =>
    simp only [List.cons_append, foldlM_cons_eq_ok, ih]
    exact ⟨fun ⟨next, head, middle, first, second⟩ => ⟨middle, ⟨next, head, first⟩, second⟩,
      fun ⟨middle, ⟨next, head, first⟩, second⟩ => ⟨next, head, middle, first, second⟩⟩

/-- An invariant of the part already folded, extended element by element, holds of the whole. -/
theorem foldlM_prefix_invariant {step : β → α → Except ε β} {xs : List α} {b c : β} (Inv : List α → β → Prop)
    (start : Inv [] b) (run : xs.foldlM step b = .ok c)
    (kept : ∀ seen a later b next, xs = seen ++ a :: later → Inv seen b → step b a = .ok next →
      Inv (seen ++ [a]) next) : Inv xs c := by
  have from_here : ∀ rest seen b, xs = seen ++ rest → Inv seen b → rest.foldlM step b = .ok c → Inv xs c := by
    intro rest
    induction rest with
    | nil =>
      intro seen b whole holds run
      cases pure_eq_ok.mp run
      rw [whole, List.append_nil]
      exact holds
    | cons a later ih =>
      intro seen b whole holds run
      obtain ⟨next, head, tail⟩ := foldlM_cons_eq_ok.mp run
      exact ih (seen ++ [a]) next (by simp [whole]) (kept seen a later b next whole holds head) tail
  exact from_here xs [] b rfl start run

/-- What holds on the left of related lists carries over to the right. -/
theorem forall_of_forall₂ {R : α → β → Prop} {P : α → Prop} {Q : β → Prop} {xs : List α}
    {ys : List β} (related : List.Forall₂ R xs ys) (left : ∀ a ∈ xs, P a) (carries : ∀ a b, R a b → P a → Q b) :
    ∀ b ∈ ys, Q b := by
  induction related with
  | nil => simp
  | cons same _ ih =>
    obtain ⟨head, tail⟩ := List.forall_mem_cons.mp left
    exact List.forall_mem_cons.mpr ⟨carries _ _ same head, ih tail⟩

theorem exists_of_forall₂ {R : α → β → Prop} {xs : List α} {ys : List β} (related : List.Forall₂ R xs ys) :
    ∀ a ∈ xs, ∃ b ∈ ys, R a b := by
  induction related with
  | nil => simp
  | @cons a b xs ys head _ ih =>
    refine List.forall_mem_cons.mpr ⟨⟨b, List.mem_cons_self, head⟩, fun a' member => ?_⟩
    obtain ⟨b', listed, same⟩ := ih a' member
    exact ⟨b', List.mem_cons_of_mem _ listed, same⟩

theorem forM_forall₂ {check : α → Except ε PUnit} {check' : β → Except ε PUnit} {R : α → β → Prop}
    {xs : List α} {ys : List β} (related : List.Forall₂ R xs ys) (alike : ∀ a b, R a b → check a = check' b) :
    xs.forM check = ys.forM check' := by
  induction related with
  | nil => rfl
  | @cons a b xs ys head _ ih =>
    change (check a >>= fun _ => xs.forM check) = (check' b >>= fun _ => ys.forM check')
    rw [alike a b head, ih]

/-- Folds over pointwise related lists agree when related elements drive the step alike. -/
theorem foldlM_forall₂ {step : γ → α → Except ε γ} {step' : γ → β → Except ε γ} {R : α → β → Prop}
    {xs : List α} {ys : List β} (related : List.Forall₂ R xs ys)
    (alike : ∀ c a b, R a b → step c a = step' c b) (c : γ) : xs.foldlM step c = ys.foldlM step' c := by
  induction related generalizing c with
  | nil => rfl
  | cons head _ ih =>
    rw [List.foldlM_cons, List.foldlM_cons, alike c _ _ head]
    exact congrArg _ (funext ih)

theorem mapM_eq_ok {f : α → Except ε β} {g : α → β} {xs : List α}
    (each : ∀ a ∈ xs, f a = .ok (g a)) : xs.mapM f = .ok (xs.map g) := by
  induction xs with
  | nil => rfl
  | cons a xs ih =>
    rw [List.mapM_cons, each a List.mem_cons_self, ih fun a member => each a (List.mem_cons_of_mem _ member)]
    rfl

theorem mapM_forall₂ {f : α → Except ε β} {xs : List α} {ys : List β} (run : xs.mapM f = .ok ys) :
    List.Forall₂ (fun a b => f a = .ok b) xs ys := by
  induction xs generalizing ys with
  | nil =>
    cases pure_eq_ok.mp run
    exact .nil
  | cons a xs ih =>
    rw [List.mapM_cons] at run
    obtain ⟨b, head, run⟩ := bind_eq_ok.mp run
    obtain ⟨bs, tail, run⟩ := bind_eq_ok.mp run
    cases pure_eq_ok.mp run
    exact .cons head (ih tail)

theorem mapM_of_forall₂ {f : β → Except ε γ} {g : α → γ} {xs : List α} {ys : List β}
    (each : List.Forall₂ (fun a b => f b = .ok (g a)) xs ys) : ys.mapM f = .ok (xs.map g) := by
  induction each with
  | nil => rfl
  | cons head _ ih =>
    rw [List.mapM_cons, head, ih]
    rfl

theorem exists_of_mapM_eq_ok {f : α → Except ε β} {xs : List α} {ys : List β} (run : xs.mapM f = .ok ys) :
    ∀ a ∈ xs, ∃ b, f a = .ok b := by
  intro a member
  obtain ⟨i, bound, rfl⟩ := List.getElem_of_mem member
  have related := mapM_forall₂ run
  exact ⟨_, related.get bound (related.length_eq ▸ bound)⟩

/-- Every error a computation can end with has the property. -/
def OnlyRaises (P : ε → Prop) (x : Except ε α) : Prop := ∀ e, x = .error e → P e

section OnlyRaises
variable {P : ε → Prop}

theorem OnlyRaises.ok (a : α) : OnlyRaises P (.ok a : Except ε α) := fun _ failed => nomatch failed

theorem OnlyRaises.error {e : ε} (holds : P e) : OnlyRaises P (.error e : Except ε α) :=
  fun _ failed => Except.error.inj failed ▸ holds

theorem OnlyRaises.bind {x : Except ε α} {f : α → Except ε β} (first : OnlyRaises P x)
    (rest : ∀ a, x = .ok a → OnlyRaises P (f a)) : OnlyRaises P (x >>= f) := by
  cases run : x with
  | error e => exact fun e' failed => Except.error.inj failed ▸ first e run
  | ok a => exact rest a run

theorem OnlyRaises.guard_of {c : Prop} [Decidable c] {e : ε} {x : Except ε α} (raised : c → P e)
    (rest : ¬ c → OnlyRaises P x) : OnlyRaises P (if c then .error e else x) := by
  split
  · next failed => exact .error (raised failed)
  · next passed => exact rest passed

theorem OnlyRaises.guard {c : Prop} [Decidable c] {e : ε} {x : Except ε α} (raised : P e)
    (rest : ¬ c → OnlyRaises P x) : OnlyRaises P (if c then .error e else x) :=
  guard_of (fun _ => raised) rest

theorem OnlyRaises.forM {check : α → Except ε PUnit} {xs : List α} (each : ∀ a ∈ xs, OnlyRaises P (check a)) :
    OnlyRaises P (xs.forM check) := by
  induction xs with
  | nil => exact .ok _
  | cons a xs ih =>
    obtain ⟨head, tail⟩ := List.forall_mem_cons.mp each
    exact head.bind fun _ _ => ih tail

theorem OnlyRaises.foldlM {step : β → α → Except ε β} {xs : List α}
    (each : ∀ b, ∀ a ∈ xs, OnlyRaises P (step b a)) (b : β) : OnlyRaises P (xs.foldlM step b) := by
  induction xs generalizing b with
  | nil => exact .ok b
  | cons a xs ih =>
    rw [List.foldlM_cons]
    exact (each b a List.mem_cons_self).bind fun next _ =>
      ih (fun b a member => each b a (List.mem_cons_of_mem _ member)) next

theorem OnlyRaises.mapM {f : α → Except ε β} {xs : List α} (each : ∀ a ∈ xs, OnlyRaises P (f a)) :
    OnlyRaises P (xs.mapM f) := by
  induction xs with
  | nil => exact .ok _
  | cons a xs ih =>
    rw [List.mapM_cons]
    exact (each a List.mem_cons_self).bind fun _ _ =>
      (ih fun a member => each a (List.mem_cons_of_mem _ member)).bind fun _ _ => .ok _

/-- A fold raises what its steps raise in the states that the part already folded can lead to. -/
theorem OnlyRaises.foldlM_reaching {step : β → α → Except ε β} {xs : List α} {b : β} (Inv : List α → β → Prop)
    (start : Inv [] b)
    (each : ∀ seen a later b, xs = seen ++ a :: later → Inv seen b →
      OnlyRaises P (step b a) ∧ ∀ next, step b a = .ok next → Inv (seen ++ [a]) next) :
    OnlyRaises P (xs.foldlM step b) := by
  have from_here : ∀ rest seen b, xs = seen ++ rest → Inv seen b → OnlyRaises P (rest.foldlM step b) := by
    intro rest
    induction rest with
    | nil => exact fun _ b _ _ => .ok b
    | cons a later ih =>
      intro seen b whole holds
      obtain ⟨raises, kept⟩ := each seen a later b whole holds
      rw [List.foldlM_cons]
      exact raises.bind fun next stepped => ih (seen ++ [a]) next (by simp [whole]) (kept next stepped)
  exact from_here xs [] b rfl start

end OnlyRaises

variable {κ : Type u} [LinearOrder κ]

/-- A stable sort whose key computation can fail: every key is computed before anything moves. -/
def sortOnM (key : α → Except ε κ) (xs : List α) : Except ε (List α) := do
  let keys ← xs.mapM key
  return (StableSort.sortOn Prod.fst (keys.zip xs)).map Prod.snd

theorem sortOnM_of_keys {key : α → Except ε κ} {pureKey : α → κ} {xs : List α}
    (keys : ∀ a ∈ xs, key a = .ok (pureKey a)) :
    sortOnM key xs = .ok (StableSort.sortOn pureKey xs) := by
  have zipped : (xs.map pureKey).zip xs = xs.map fun a => (pureKey a, a) := by
    induction xs with
    | nil => rfl
    | cons a xs ih =>
      rw [List.map_cons, List.zip_cons_cons, ih fun a member => keys a (List.mem_cons_of_mem _ member),
        List.map_cons]
  have run : sortOnM key xs =
      .ok ((StableSort.sortOn Prod.fst ((xs.map pureKey).zip xs)).map Prod.snd) := by
    rw [sortOnM, mapM_eq_ok keys]
    rfl
  rw [run, zipped, StableSort.sortOn_map, List.map_map]
  exact congrArg _ (List.map_id _)

/-- A sort with a fallible key that succeeds is the stable sort by the keys it computed. -/
theorem sortOnM_eq_ok {key : α → Except ε κ} {pureKey : α → κ}
    (sound : ∀ a k, key a = .ok k → k = pureKey a) {xs ys : List α} :
    sortOnM key xs = .ok ys ↔
      (∀ a ∈ xs, key a = .ok (pureKey a)) ∧ ys = StableSort.sortOn pureKey xs := by
  constructor
  · intro run
    obtain ⟨keys, computed, _⟩ := bind_eq_ok.mp run
    have each : ∀ a ∈ xs, key a = .ok (pureKey a) := by
      intro a member
      obtain ⟨k, ok⟩ := exists_of_mapM_eq_ok computed a member
      rw [ok, sound a k ok]
    rw [sortOnM_of_keys each] at run
    exact ⟨each, (Except.ok.inj run).symm⟩
  · rintro ⟨each, rfl⟩
    exact sortOnM_of_keys each

end Checked

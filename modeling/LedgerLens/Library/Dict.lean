import Mathlib.Data.List.Nodup
import Mathlib.Data.List.Basic

universe u v

/-- An insertion-ordered dictionary: a key keeps the place of its first insertion when its value
is replaced. -/
structure Dict (κ : Type u) (α : Type v) where
  entries : List (κ × α)
  nodup : (entries.map Prod.fst).Nodup
  deriving DecidableEq

namespace Dict
variable {κ : Type u} {α : Type v}

def empty : Dict κ α := ⟨[], List.nodup_nil⟩

@[simp] theorem empty_entries : (empty : Dict κ α).entries = [] := rfl

def keys (d : Dict κ α) : List κ := d.entries.map Prod.fst

theorem mem_keys {d : Dict κ α} {k : κ} : k ∈ d.keys ↔ ∃ a, (k, a) ∈ d.entries := by
  simp [keys]

variable [DecidableEq κ]

def get? (d : Dict κ α) (k : κ) : Option α := (d.entries.find? fun entry => entry.1 = k).map Prod.snd

def getD (d : Dict κ α) (k : κ) (default : α) : α := (d.get? k).getD default

def setEntry (k : κ) (a : α) : List (κ × α) → List (κ × α)
  | [] => [(k, a)]
  | entry :: rest => if entry.1 = k then (k, a) :: rest else entry :: setEntry k a rest

theorem setEntry_keys (k : κ) (a : α) (entries : List (κ × α)) :
    (setEntry k a entries).map Prod.fst =
      if k ∈ entries.map Prod.fst then entries.map Prod.fst else entries.map Prod.fst ++ [k] := by
  induction entries with
  | nil => rfl
  | cons entry rest ih =>
    by_cases same : entry.1 = k
    · simp [setEntry, same]
    · have other : ¬ k = entry.1 := fun equal => same equal.symm
      by_cases member : k ∈ rest.map Prod.fst
      · simp only [setEntry, same, if_false, List.map_cons, ih, member, if_true, List.mem_cons, other,
          false_or]
      · simp only [setEntry, same, if_false, List.map_cons, ih, member, List.mem_cons, other,
          or_self, List.cons_append]

theorem setEntry_of_fresh {k : κ} {a : α} {entries : List (κ × α)} (fresh : k ∉ entries.map Prod.fst) :
    setEntry k a entries = entries ++ [(k, a)] := by
  induction entries with
  | nil => rfl
  | cons entry rest ih =>
    simp only [List.map_cons, List.mem_cons, not_or] at fresh
    have other : ¬ entry.1 = k := fun equal => fresh.1 equal.symm
    simp only [setEntry, other, if_false, ih fresh.2, List.cons_append]

def set (d : Dict κ α) (k : κ) (a : α) : Dict κ α where
  entries := setEntry k a d.entries
  nodup := by
    rw [setEntry_keys]
    split
    · exact d.nodup
    · next absent =>
      exact List.nodup_append.mpr ⟨d.nodup, List.nodup_singleton k, fun a member b single equal =>
        absent (by rw [← List.mem_singleton.mp single, ← equal]; exact member)⟩

@[simp] theorem get?_empty (k : κ) : (empty : Dict κ α).get? k = none := rfl

theorem get?_eq_some {d : Dict κ α} {k : κ} {a : α} : d.get? k = some a ↔ (k, a) ∈ d.entries := by
  obtain ⟨entries, nodup⟩ := d
  simp only [get?]
  induction entries with
  | nil => simp
  | cons entry rest ih =>
    obtain ⟨absent, tail⟩ := List.nodup_cons.mp nodup
    by_cases same : entry.1 = k
    · subst same
      have unlisted : (entry.1, a) ∉ rest := fun member =>
        absent (List.mem_map.mpr ⟨_, member, rfl⟩)
      simp only [List.find?_cons, decide_true, Option.map_some, Option.some.injEq, List.mem_cons, unlisted,
        or_false, Prod.ext_iff, true_and]
      exact eq_comm
    · have other : (k, a) ≠ entry := fun equal => same (by rw [← equal])
      simp only [List.find?_cons, same, decide_false, List.mem_cons, other, false_or]
      exact ih tail

theorem get?_eq_none {d : Dict κ α} {k : κ} : d.get? k = none ↔ k ∉ d.keys := by
  rw [mem_keys, Option.eq_none_iff_forall_ne_some]
  simp only [ne_eq, get?_eq_some, not_exists]

theorem entries_eq_nil {d : Dict κ α} : d.entries = [] ↔ ∀ k, d.get? k = none := by
  simp only [get?_eq_none, mem_keys, not_exists, List.eq_nil_iff_forall_not_mem, Prod.forall]

theorem get?_set (d : Dict κ α) (k l : κ) (a : α) :
    (d.set k a).get? l = if k = l then some a else d.get? l := by
  obtain ⟨entries, nodup⟩ := d
  simp only [get?, set]
  clear nodup
  induction entries with
  | nil => by_cases same : k = l <;> simp [setEntry, same]
  | cons entry rest ih =>
    by_cases head : entry.1 = k
    · by_cases same : k = l
      · simp [setEntry, head, same]
      · simp [setEntry, head, same]
    · by_cases found : entry.1 = l
      · have other : ¬ k = l := fun equal => head (found.trans equal.symm)
        rw [setEntry, if_neg head, if_neg other]
        simp only [List.find?_cons, found, decide_true]
      · simp only [setEntry, head, if_false, List.find?_cons, found, decide_false]
        exact ih

/-- Filling a dictionary from a list leaves the keys alone that no element has. -/
theorem get?_foldl_set_of_absent {β : Type*} (key : β → κ) (value : β → α) {xs : List β} {k : κ}
    (absent : ∀ x ∈ xs, key x ≠ k) (d : Dict κ α) :
    (xs.foldl (fun d x => d.set (key x) (value x)) d).get? k = d.get? k := by
  induction xs generalizing d with
  | nil => rfl
  | cons x xs ih =>
    obtain ⟨head, tail⟩ := List.forall_mem_cons.mp absent
    rw [List.foldl_cons, ih tail, get?_set, if_neg head]

/-- With distinct keys, a dictionary filled from a list finds each element. -/
theorem get?_foldl_set_of_mem {β : Type*} (key : β → κ) (value : β → α) {xs : List β}
    (distinct : (xs.map key).Nodup) {x : β} (member : x ∈ xs) (d : Dict κ α) :
    (xs.foldl (fun d x => d.set (key x) (value x)) d).get? (key x) = some (value x) := by
  induction xs generalizing d with
  | nil => cases member
  | cons y xs ih =>
    obtain ⟨once, rest⟩ := List.nodup_cons.mp distinct
    rw [List.foldl_cons]
    rcases List.mem_cons.mp member with rfl | later
    · have absent : ∀ z ∈ xs, key z ≠ key x := fun z listed same => once (same ▸ List.mem_map_of_mem listed)
      rw [get?_foldl_set_of_absent key value absent, get?_set, if_pos rfl]
    · exact ih rest later _

@[simp] theorem getD_empty (k : κ) (default : α) : (empty : Dict κ α).getD k default = default := rfl

theorem getD_set (d : Dict κ α) (k l : κ) (a default : α) :
    (d.set k a).getD l default = if k = l then a else d.getD l default := by
  unfold getD
  rw [get?_set]
  split <;> rfl

theorem mem_keys_set {d : Dict κ α} {k l : κ} {a : α} : l ∈ (d.set k a).keys ↔ l = k ∨ l ∈ d.keys := by
  rw [← not_iff_not, ← get?_eq_none, get?_set, not_or, ← get?_eq_none]
  by_cases same : k = l
  · simp [same]
  · simp [same, Ne.symm same]

/-- Appending a fresh key leaves the earlier entries as they were. -/
theorem entries_set_of_fresh {d : Dict κ α} {k : κ} {a : α} (fresh : k ∉ d.keys) :
    (d.set k a).entries = d.entries ++ [(k, a)] :=
  setEntry_of_fresh fresh

section MapValues
variable {β : Type*} (f : κ → α → β)

omit [DecidableEq κ] in
private theorem map_entries_keys (d : Dict κ α) :
    (d.entries.map fun entry => (entry.1, f entry.1 entry.2)).map Prod.fst = d.entries.map Prod.fst := by
  rw [List.map_map]
  rfl

/-- The dictionary with every value changed under its key. -/
def mapValues (d : Dict κ α) : Dict κ β where
  entries := d.entries.map fun entry => (entry.1, f entry.1 entry.2)
  nodup := by
    rw [map_entries_keys]
    exact d.nodup

omit [DecidableEq κ] in
@[simp] theorem mapValues_entries (d : Dict κ α) :
    (d.mapValues f).entries = d.entries.map fun entry => (entry.1, f entry.1 entry.2) := rfl

omit [DecidableEq κ] in
@[simp] theorem mapValues_keys (d : Dict κ α) : (d.mapValues f).keys = d.keys := map_entries_keys f d

@[simp] theorem mapValues_get? (d : Dict κ α) (k : κ) : (d.mapValues f).get? k = (d.get? k).map (f k) := by
  obtain ⟨entries, nodup⟩ := d
  simp only [get?, mapValues]
  clear nodup
  induction entries with
  | nil => rfl
  | cons entry rest ih =>
    by_cases own : entry.1 = k
    · simp [own]
    · simpa [own] using ih

@[simp] theorem mapValues_set (d : Dict κ α) (k : κ) (a : α) :
    (d.set k a).mapValues f = (d.mapValues f).set k (f k a) := by
  obtain ⟨entries, nodup⟩ := d
  simp only [set, mapValues, Dict.mk.injEq]
  clear nodup
  induction entries with
  | nil => rfl
  | cons entry rest ih =>
    by_cases own : entry.1 = k
    · simp [setEntry, own]
    · simpa [setEntry, own] using ih

end MapValues

section Related
variable {β : Type*} (R : α → β → Prop)

/-- Dictionaries with the same keys in the same order, and related values under each. -/
def Related (d : Dict κ α) (d' : Dict κ β) : Prop :=
  List.Forall₂ (fun entry entry' => entry.1 = entry'.1 ∧ R entry.2 entry'.2) d.entries d'.entries

variable {R}

omit [DecidableEq κ] in
theorem related_empty : Related R (empty : Dict κ α) empty := .nil

theorem Related.set {d : Dict κ α} {d' : Dict κ β} (related : Related R d d') (k : κ) {a : α} {b : β}
    (own : R a b) : Related R (d.set k a) (d'.set k b) := by
  obtain ⟨entries, nodup⟩ := d
  obtain ⟨entries', nodup'⟩ := d'
  unfold Related at related ⊢
  simp only [Dict.set] at related ⊢
  clear nodup nodup'
  induction related with
  | nil => exact .cons ⟨rfl, own⟩ .nil
  | @cons entry entry' rest rest' head tail ih =>
    rw [setEntry, setEntry, ← head.1]
    split
    · exact .cons ⟨rfl, own⟩ tail
    · exact .cons head ih

theorem Related.get? {d : Dict κ α} {d' : Dict κ β} (related : Related R d d') (k : κ) :
    Option.Rel R (d.get? k) (d'.get? k) := by
  obtain ⟨entries, nodup⟩ := d
  obtain ⟨entries', nodup'⟩ := d'
  unfold Related at related
  simp only [Dict.get?] at related ⊢
  clear nodup nodup'
  induction related with
  | nil => exact .none
  | @cons entry entry' rest rest' head tail ih =>
    rw [List.find?_cons, List.find?_cons, ← head.1]
    by_cases own : entry.1 = k
    · simp only [own, decide_true, Option.map_some]
      exact .some head.2
    · simp only [own, decide_false]
      exact ih

theorem Related.getD {d : Dict κ α} {d' : Dict κ β} (related : Related R d d') (k : κ) {a : α} {b : β}
    (default : R a b) : R (d.getD k a) (d'.getD k b) := by
  unfold Dict.getD
  have found := related.get? k
  revert found
  generalize d.get? k = left
  generalize d'.get? k = right
  rintro (found | _)
  · exact found
  · exact default

end Related
end Dict

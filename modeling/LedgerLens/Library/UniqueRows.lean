import Mathlib.Data.List.Nodup
import Mathlib.Data.List.Perm.Basic
import Mathlib.Tactic.Common

namespace UniqueRows
universe u
variable {ι ρ : Type u}

/-- Under a unique key a row is found. -/
theorem find?_of_nodup {key : ρ → ι} {rows : List ρ} (unique : (rows.map key).Nodup) {row : ρ} (listed : row ∈ rows)
    {p : ρ → Bool} (asks : ∀ other, p other ↔ key other = key row) : rows.find? p = some row := by
  cases searched : rows.find? p with
  | none => exact absurd ((asks row).mpr rfl) (List.find?_eq_none.mp searched row listed)
  | some other =>
    have same : key other = key row := (asks other).mp (List.find?_some searched)
    exact congrArg some (List.inj_on_of_nodup_map unique (List.mem_of_find?_eq_some searched) listed same)

/-- The committed rows of a table, and those that open transactions have inserted. -/
structure Table (ι ρ : Type u) where
  committed : List ρ
  pending : List (ι × ρ) := []

/-- What becomes of an insert into a table with a uniqueness constraint: a row in the way is an error if
it is committed, and waited for while its transaction is open. -/
inductive Insertion (ι ρ : Type u) where
  | violates
  | waits
  | inserted (table : Table ι ρ)

namespace Table
variable [DecidableEq ι] (conflicts : ρ → ρ → Bool) (table : Table ι ρ) (client : ι)

/-- The rows that a transaction has inserted. -/
def own : List ρ := (table.pending.filter fun entry => entry.1 = client).map Prod.snd

/-- The rows that a transaction sees. -/
def visible : List ρ := table.committed ++ table.own client

def insert (row : ρ) : Insertion ι ρ :=
  if (table.visible client).any (conflicts row) then .violates
  else if table.pending.any fun entry => conflicts row entry.2 then .waits
  else .inserted { table with pending := table.pending ++ [(client, row)] }

def commit : Table ι ρ where
  committed := table.committed ++ table.own client
  pending := table.pending.filter fun entry => entry.1 ≠ client

def rollback : Table ι ρ where
  committed := table.committed
  pending := table.pending.filter fun entry => entry.1 ≠ client

/-- No two rows conflict, committed or not. -/
def Sound : Prop := (table.committed ++ table.pending.map Prod.snd).Pairwise fun a b => conflicts a b = false

variable {conflicts table client}

theorem mem_own {row : ρ} : row ∈ table.own client ↔ (client, row) ∈ table.pending := by
  rw [own, List.mem_map]
  constructor
  · rintro ⟨⟨other, _⟩, member, rfl⟩
    obtain ⟨listed, same⟩ := List.mem_filter.mp member
    cases of_decide_eq_true same
    exact listed
  · exact fun listed => ⟨(client, row), List.mem_filter.mpr ⟨listed, decide_eq_true rfl⟩, rfl⟩

theorem insert_eq_violates {row : ρ} (violates : table.insert conflicts client row = .violates) :
    ∃ other ∈ table.visible client, conflicts row other = true := by
  unfold insert at violates
  split at violates
  · next found => exact List.any_eq_true.mp found
  · split at violates <;> cases violates

theorem insert_of_visible {row other : ρ} (seen : other ∈ table.visible client)
    (conflict : conflicts row other = true) :
    table.insert conflicts client row = .violates :=
  if_pos (List.any_eq_true.mpr ⟨other, seen, conflict⟩)

theorem visible_commit {row : ρ} (pending : (client, row) ∈ table.pending) (other : ι) :
    row ∈ (table.commit client).visible other :=
  List.mem_append_left _ (List.mem_append_right _ (mem_own.mpr pending))

theorem insert_eq_waits {row : ρ} (waits : table.insert conflicts client row = .waits) :
    ∃ other row', (other, row') ∈ table.pending ∧ conflicts row row' = true := by
  unfold insert at waits
  split at waits
  · cases waits
  · split at waits
    · next found =>
      obtain ⟨⟨other, row'⟩, listed, conflict⟩ := List.any_eq_true.mp found
      exact ⟨other, row', listed, conflict⟩
    · cases waits

theorem insert_eq_inserted {row : ρ} {next : Table ι ρ}
    (inserted : table.insert conflicts client row = .inserted next) :
    next = { table with pending := table.pending ++ [(client, row)] } ∧
      (∀ other ∈ table.committed ++ table.pending.map Prod.snd, conflicts row other = false) := by
  unfold insert at inserted
  split at inserted
  · cases inserted
  · next visible =>
    split at inserted
    · cases inserted
    · next free =>
      cases inserted
      simp only [Bool.not_eq_true, List.any_eq_false] at visible free
      refine ⟨rfl, List.forall_mem_append.mpr ⟨fun other listed => ?_, fun other listed => ?_⟩⟩
      · simpa using visible other (List.mem_append_left _ listed)
      · obtain ⟨entry, member, rfl⟩ := List.mem_map.mp listed
        simpa using free entry member

theorem Sound.insert (symmetric : ∀ a b, conflicts a b = conflicts b a) (sound : table.Sound conflicts) {row : ρ}
    {next : Table ι ρ} (inserted : table.insert conflicts client row = .inserted next) : next.Sound conflicts := by
  obtain ⟨rfl, free⟩ := insert_eq_inserted inserted
  unfold Sound
  rw [List.map_append, ← List.append_assoc, List.pairwise_append]
  refine ⟨sound, List.pairwise_singleton _ _, fun other listed last single => ?_⟩
  cases List.mem_singleton.mp single
  rw [symmetric]
  exact free other listed

/-- A commit moves rows, and brings none. -/
theorem Sound.commit (symmetric : ∀ a b, conflicts a b = conflicts b a) (sound : table.Sound conflicts) (client : ι) :
    (table.commit client).Sound conflicts := by
  have parts : (table.own client ++ (table.pending.filter fun entry => entry.1 ≠ client).map Prod.snd).Perm
      (table.pending.map Prod.snd) := by
    rw [own, ← List.map_append]
    refine List.Perm.map _ ?_
    simpa using List.filter_append_perm (fun entry : ι × ρ => decide (entry.1 = client)) table.pending
  unfold Sound Table.commit
  rw [List.append_assoc]
  refine ((parts.append_left table.committed).pairwise_iff fun conflict => ?_).mpr sound
  rw [symmetric]
  exact conflict

omit [DecidableEq ι] in
theorem Sound.mono (sound : table.Sound conflicts) {next : Table ι ρ} (same : next.committed = table.committed)
    (fewer : next.pending.Sublist table.pending) : next.Sound conflicts := by
  unfold Sound
  rw [same]
  exact List.Pairwise.sublist (List.Sublist.append_left (fewer.map _) _) sound

theorem Sound.rollback (sound : table.Sound conflicts) (client : ι) : (table.rollback client).Sound conflicts :=
  sound.mono rfl List.filter_sublist

theorem own_insert {row : ρ} {next : Table ι ρ} (inserted : table.insert conflicts client row = .inserted next)
    (other : ι) : next.own other = if other = client then table.own client ++ [row] else table.own other := by
  obtain ⟨rfl, _⟩ := insert_eq_inserted inserted
  by_cases same : other = client
  · subst same
    simp [own]
  · simp [own, same, Ne.symm same]

theorem own_settled (other : ι) :
    ((table.pending.filter fun entry => entry.1 ≠ client).filter fun entry => entry.1 = other).map Prod.snd =
      if other = client then [] else table.own other := by
  rw [List.filter_filter]
  by_cases same : other = client
  · subst same
    rw [if_pos rfl, List.map_eq_nil_iff, List.filter_eq_nil_iff]
    rintro entry _ both
    simp at both
  · rw [if_neg same, own]
    refine congrArg _ (List.filter_congr fun entry _ => ?_)
    by_cases mine : entry.1 = other
    · simp [mine, same]
    · simp [mine]

theorem own_commit (other : ι) : (table.commit client).own other = if other = client then [] else table.own other :=
  own_settled other

theorem own_rollback (other : ι) :
    (table.rollback client).own other = if other = client then [] else table.own other :=
  own_settled other

end Table
end UniqueRows

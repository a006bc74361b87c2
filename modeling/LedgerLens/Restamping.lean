import LedgerLens.NormalizedTransactions
import LedgerLens.SoundLedger

namespace LedgerLens
open Decimal (Context)

/-- Two transactions that differ at most in their id and in the time they were recorded. -/
structure SameEvent (a b : Transaction) : Prop where
  eq : b = { a with id := b.id, createdAt := b.createdAt }
  left : ∀ createdAt ∈ a.createdAt, createdAt.isAware
  right : ∀ createdAt ∈ b.createdAt, createdAt.isAware

variable [UnicodeDatabase]

theorem SameEvent.validateTransaction_eq {a b : Transaction} (same : SameEvent a b) :
    validateTransaction a = validateTransaction b := by
  have created : ∀ {t : Transaction}, (∀ createdAt ∈ t.createdAt, createdAt.isAware) →
      (t.createdAt.any fun createdAt => ¬ createdAt.isAware) = false := by
    intro t aware
    cases recorded : t.createdAt with
    | none => rfl
    | some createdAt => simpa using aware createdAt recorded
  have left := created same.left
  have right := created same.right
  have equal := same.eq
  generalize b.id = id, b.createdAt = createdAt at equal right
  subst equal
  simp only [validateTransaction, left, right]
  rfl

omit [UnicodeDatabase] in
theorem SameEvent.changePosition_eq {a b : Transaction} (same : SameEvent a b) (ctx : Context)
    (exceeds : String → Error) (positions : Dict String ℚ) :
    changePosition ctx exceeds positions a = changePosition ctx exceeds positions b := by
  rw [same.eq]
  rfl

/-- Two ledgers that record the same events in the same order, under other ids and times. -/
structure Aligned (xs ys : List Transaction) : Prop where
  events : List.Forall₂ SameEvent xs ys
  recorded : (∀ t ∈ xs, t.createdAt.isSome) ∧ ∀ t ∈ ys, t.createdAt.isSome
  order : ∀ a ∈ xs.zip ys, ∀ b ∈ xs.zip ys, a.1.ledgerKey ≤ b.1.ledgerKey ↔ a.2.ledgerKey ≤ b.2.ledgerKey

omit [UnicodeDatabase] in
theorem SameEvent.refl {t : Transaction} (created : ∀ createdAt ∈ t.createdAt, createdAt.isAware) : SameEvent t t :=
  ⟨rfl, created, created⟩

omit [UnicodeDatabase] in
theorem SameEvent.occurredAt_eq {a b : Transaction} (same : SameEvent a b) : b.occurredAt = a.occurredAt := by
  rw [same.eq]

omit [UnicodeDatabase] in
theorem Aligned.refl {ledger : List Transaction}
    (recorded : ∀ t ∈ ledger, ∃ createdAt, t.createdAt = some createdAt ∧ createdAt.isAware) :
    Aligned ledger ledger where
  events := List.forall₂_same.mpr fun t member => by
    obtain ⟨createdAt, stamped, aware⟩ := recorded t member
    refine .refl fun other known => ?_
    cases Option.some.inj (stamped.symm.trans known)
    exact aware
  recorded := by
    have stamped : ∀ t ∈ ledger, t.createdAt.isSome := fun t member => by
      obtain ⟨createdAt, stamped, _⟩ := recorded t member
      rw [stamped]
      rfl
    exact ⟨stamped, stamped⟩
  order := by
    have diagonal : ∀ a ∈ ledger.zip ledger, a.1 = a.2 := by
      intro a listed
      rw [← List.map_id ledger, List.zip_map'] at listed
      obtain ⟨x, _, rfl⟩ := List.mem_map.mp listed
      rfl
    intro a listedA b listedB
    rw [diagonal a listedA, diagonal b listedB]

/-- The clock reads later than everything recorded. -/
def RecordedBefore (ledger : List Transaction) (now : DateTime) : Prop :=
  ∀ t ∈ ledger, ∀ createdAt ∈ t.createdAt, createdAt.instant < now.instant

omit [UnicodeDatabase] in
/-- Against a row recorded earlier, a new transaction sorts by its time alone. -/
theorem ledgerKey_le_new {a t : Transaction} {createdAt now : DateTime} (recorded : a.createdAt = some createdAt)
    (later : createdAt.instant < now.instant) (stamped : t.createdAt = some now) :
    (a.ledgerKey ≤ t.ledgerKey ↔ a.occurredAt.instant ≤ t.occurredAt.instant) ∧
      (t.ledgerKey ≤ a.ledgerKey ↔ t.occurredAt.instant < a.occurredAt.instant) := by
  have before : toLex (createdAt.instant, a.id) < toLex (now.instant, t.id) := Prod.Lex.lt_iff.mpr (.inl later)
  simp only [Transaction.ledgerKey, recorded, stamped, Option.getD_some]
  constructor
  · refine ⟨fun order => ?_, fun order => Prod.Lex.le_iff.mpr ?_⟩
    · exact (Prod.Lex.le_iff.mp order).elim le_of_lt fun same => same.1.le
    · exact order.lt_or_eq.imp id fun same => ⟨same, before.le⟩
  · refine ⟨fun order => ?_, fun order => Prod.Lex.le_iff.mpr (.inl order)⟩
    exact (Prod.Lex.le_iff.mp order).elim id fun same => absurd same.2 before.not_ge

omit [UnicodeDatabase] in
/-- Aligned ledgers stay aligned when each gets the same event under a time later than all its own. -/
theorem Aligned.snoc {xs ys : List Transaction} (aligned : Aligned xs ys) {t t' : Transaction} (same : SameEvent t t')
    {now now' : DateTime} (stamped : t.createdAt = some now) (stamped' : t'.createdAt = some now')
    (before : RecordedBefore xs now) (before' : RecordedBefore ys now') : Aligned (xs ++ [t]) (ys ++ [t']) where
  events := List.rel_append aligned.events (.cons same .nil)
  recorded := by
    obtain ⟨left, right⟩ := aligned.recorded
    have known : t.createdAt.isSome := stamped ▸ rfl
    have known' : t'.createdAt.isSome := stamped' ▸ rfl
    exact ⟨List.forall_mem_append.mpr ⟨left, List.forall_mem_singleton.mpr known⟩,
      List.forall_mem_append.mpr ⟨right, List.forall_mem_singleton.mpr known'⟩⟩
  order := by
    have against : ∀ a ∈ xs.zip ys, (a.1.ledgerKey ≤ t.ledgerKey ↔ a.2.ledgerKey ≤ t'.ledgerKey) ∧
        (t.ledgerKey ≤ a.1.ledgerKey ↔ t'.ledgerKey ≤ a.2.ledgerKey) := by
      intro a listed
      obtain ⟨member, member'⟩ := List.of_mem_zip (a := a.1) (b := a.2) listed
      obtain ⟨createdAt, known⟩ := Option.isSome_iff_exists.mp (aligned.recorded.1 a.1 member)
      obtain ⟨createdAt', known'⟩ := Option.isSome_iff_exists.mp (aligned.recorded.2 a.2 member')
      have first := ledgerKey_le_new known (before a.1 member createdAt known) stamped
      have second := ledgerKey_le_new known' (before' a.2 member' createdAt' known') stamped'
      have event := (List.forall₂_iff_zip.mp aligned.events).2 listed
      rw [event.occurredAt_eq, same.occurredAt_eq] at second
      exact ⟨first.1.trans second.1.symm, first.2.trans second.2.symm⟩
    rw [List.zip_append aligned.events.length_eq, List.zip_cons_cons, List.zip_nil_left]
    intro a listedA b listedB
    rcases List.mem_append.mp listedA with old | new <;> rcases List.mem_append.mp listedB with old' | new'
    · exact aligned.order a old b old'
    · cases List.mem_singleton.mp new'
      exact (against a old).1
    · cases List.mem_singleton.mp new
      exact (against b old').2
    · cases List.mem_singleton.mp new
      cases List.mem_singleton.mp new'
      exact iff_of_true le_rfl le_rfl

/-- Aligned ledgers are replayed alike. -/
theorem Aligned.derivePositions_eq (ctx : Context) {xs ys : List Transaction} (aligned : Aligned xs ys)
    (utc : ∀ t ∈ xs, t.occurredAt.isUtc) : derivePositions ctx xs = derivePositions ctx ys := by
  have utc' : ∀ t ∈ ys, t.occurredAt.isUtc :=
    Checked.forall_of_forall₂ aligned.events utc fun a b same utcA => same.occurredAt_eq ▸ utcA
  have validated := Checked.forM_forall₂ aligned.events fun a b same => SameEvent.validateTransaction_eq same
  have replayed := Checked.foldlM_forall₂ (StableSort.forall₂_sortOn aligned.events aligned.order)
    (fun positions a b same => SameEvent.changePosition_eq same ctx .invalidTransaction positions) Dict.empty
  unfold derivePositions
  rw [validated, sortOnM_ledgerOrder_of_isUtc utc, sortOnM_ledgerOrder_of_isUtc utc', Checked.ok_bind, Checked.ok_bind]
  unfold ledgerSorted
  rw [replayed]

/-- Sorting the first part of a ledger beforehand does not change its replay. -/
theorem derivePositions_presorted (ctx : Context) {xs ys : List Transaction} (valid : ∀ t ∈ xs ++ ys, t.Valid)
    (utc : ∀ t ∈ xs ++ ys, t.occurredAt.isUtc) :
    derivePositions ctx (ledgerSorted xs ++ ys) = derivePositions ctx (xs ++ ys) := by
  have same : ∀ {t}, t ∈ ledgerSorted xs ++ ys ↔ t ∈ xs ++ ys := by
    intro t
    rw [List.mem_append, List.mem_append, ledgerSorted, StableSort.mem_sortOn]
  have checked : ∀ {ts : List Transaction}, (∀ t ∈ ts, t.Valid) → ts.forM validateTransaction = .ok ⟨⟩ :=
    fun valid => Checked.forM_eq_ok.mpr fun t member => validateTransaction_eq_ok.mpr (valid t member)
  have order : ledgerSorted (ledgerSorted xs ++ ys) = ledgerSorted (xs ++ ys) :=
    StableSort.sortOn_append_sorted _ xs ys
  unfold derivePositions
  rw [checked valid, checked fun t member => valid t (same.mp member), sortOnM_ledgerOrder_of_isUtc utc,
    sortOnM_ledgerOrder_of_isUtc fun t member => utc t (same.mp member), order]

end LedgerLens

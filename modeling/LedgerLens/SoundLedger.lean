import LedgerLens.LedgerGrowth

namespace LedgerLens
open Decimal (Context)
open RunningSum (StaysNonneg)
variable {F : Type} [UnicodeDatabase]

/-- The rules every stored ledger obeys, whatever the decimal context. -/
structure SoundLedger (ledger : List Transaction) : Prop where
  externalIds : (ledger.map Transaction.externalId).Nodup
  validated : ∀ t ∈ ledger, validateTransaction t = .ok ()
  upperCase : ∀ t ∈ ledger, ∀ symbol ∈ t.symbol, Text.upper symbol = symbol
  utc : ∀ t ∈ ledger, t.occurredAt.isUtc

/-- No position is negative at any place of the replay order. -/
def NeverShort (ledger : List Transaction) : Prop :=
  ∀ symbol, StaysNonneg (Transaction.signedQuantity symbol) 0 ledger

theorem SoundLedger.nil : SoundLedger [] where
  externalIds := List.nodup_nil
  validated := by simp
  upperCase := by simp
  utc := by simp

theorem SoundLedger.perm {ledger other : List Transaction} (sound : SoundLedger ledger)
    (same : other.Perm ledger) : SoundLedger other where
  externalIds := (same.map Transaction.externalId).nodup_iff.mpr sound.externalIds
  validated t member := sound.validated t (same.mem_iff.mp member)
  upperCase t member := sound.upperCase t (same.mem_iff.mp member)
  utc t member := sound.utc t (same.mem_iff.mp member)

omit [UnicodeDatabase] in
theorem ledgerSorted_perm (rows : List Transaction) : (ledgerSorted rows).Perm rows :=
  StableSort.sortOn_perm _ rows

omit [UnicodeDatabase] in
theorem rowsOf_append_own {t : Transaction} (rows : List Transaction) :
    rowsOf t.portfolioId (rows ++ [t]) = rowsOf t.portfolioId rows ++ [t] := by
  simp [rowsOf]

omit [UnicodeDatabase] in
theorem rowsOf_append_other {t : Transaction} {portfolioId : UUID} (other : t.portfolioId ≠ portfolioId)
    (rows : List Transaction) : rowsOf portfolioId (rows ++ [t]) = rowsOf portfolioId rows := by
  simp [rowsOf, other]

theorem Accepts.sound {ctx : Context} {rows : List Transaction} {t : Transaction} (accepted : Accepts ctx rows t)
    (sound : SoundLedger (rowsOf t.portfolioId rows)) : SoundLedger (rowsOf t.portfolioId rows ++ [t]) where
  externalIds := by
    rw [List.map_append, List.nodup_append]
    refine ⟨sound.externalIds, List.nodup_singleton _, ?_⟩
    intro externalId listed added single
    obtain ⟨other, member, rfl⟩ := List.mem_map.mp listed
    rw [List.mem_singleton.mp single]
    exact accepted.fresh other member
  validated := List.forall_mem_append.mpr ⟨sound.validated,
    List.forall_mem_singleton.mpr (validateTransaction_eq_ok.mpr accepted.valid)⟩
  upperCase := List.forall_mem_append.mpr ⟨sound.upperCase,
    List.forall_mem_singleton.mpr accepted.built.symbol_upper⟩
  utc := List.forall_mem_append.mpr ⟨sound.utc,
    List.forall_mem_singleton.mpr (accepted.built.occurredAt_isUtc accepted.valid)⟩

/-- The replay that admits a transaction is the replay of the ledger with it in place. -/
theorem Accepts.neverShort {rows : List Transaction} {t : Transaction} (accepted : Accepts .exact rows t) :
    NeverShort (ledgerSorted (rowsOf t.portfolioId rows ++ [t])) := by
  obtain ⟨positions, replayed⟩ := accepted.replayed
  have nonneg := (derivePositions_eq_ok.mp replayed).1.nonneg
  unfold ledgerSorted at nonneg ⊢
  rwa [StableSort.sortOn_append_sorted] at nonneg

/-- An invariant of single portfolios that accepted writes keep holds of all of them later. -/
theorem Grows.invariant {ctx : Context} {before after : World F} (grows : Grows ctx before after)
    (Inv : List Transaction → Prop) (start : ∀ portfolioId, Inv (before.store.rows portfolioId))
    (step : ∀ rows t, Accepts ctx rows t → Inv (rowsOf t.portfolioId rows) → Inv (rowsOf t.portfolioId rows ++ [t]))
    (portfolioId : UUID) : Inv (after.store.rows portfolioId) := by
  unfold Grows at grows
  unfold Store.rows at start ⊢
  generalize after.store.transactions = rows at grows
  induction grows generalizing portfolioId with
  | refl => exact start portfolioId
  | tail _ appended ih =>
    obtain ⟨t, accepted, rfl⟩ := appended
    by_cases own : t.portfolioId = portfolioId
    · subst own
      rw [rowsOf_append_own]
      exact step _ t accepted (ih _)
    · rw [rowsOf_append_other own]
      exact ih portfolioId

theorem Grows.sound {ctx : Context} {before after : World F} (grows : Grows ctx before after)
    (sound : ∀ portfolioId, SoundLedger (before.store.rows portfolioId)) :
    ∀ portfolioId, SoundLedger (after.store.rows portfolioId) :=
  grows.invariant SoundLedger sound fun _ _ accepted => accepted.sound

theorem Grows.neverShort {before after : World F} (grows : Grows .exact before after)
    (nonneg : ∀ portfolioId, NeverShort (before.store.ledger portfolioId)) :
    ∀ portfolioId, NeverShort (after.store.ledger portfolioId) :=
  grows.invariant (fun rows => NeverShort (ledgerSorted rows)) nonneg fun _ _ accepted _ => accepted.neverShort

theorem Grows.keeps_rows {ctx : Context} {before after : World F} (grows : Grows ctx before after) :
    before.store.transactions <+: after.store.transactions := by
  unfold Grows at grows
  generalize after.store.transactions = rows at grows
  induction grows with
  | refl => exact List.prefix_rfl
  | tail _ appended ih =>
    obtain ⟨t, _, rfl⟩ := appended
    exact ih.trans (List.prefix_append _ _)

/-- Either one transaction went to the end of one portfolio and was reported as created, or nothing
was reported as created and the world is the same. -/
def AppendsOneOrNothing (portfolioId : UUID) (outcome : Except Error TransactionCreation)
    (before after : World F) : Prop :=
  (∃ t, outcome = .ok ⟨t, true⟩ ∧ t.portfolioId = portfolioId ∧
      after = before.update (fun store => store.addTransaction t) ∧
      after.store.rows portfolioId = before.store.rows portfolioId ++ [t] ∧
      ∀ other, other ≠ portfolioId → after.store.rows other = before.store.rows other) ∨
    (∀ t, outcome ≠ .ok ⟨t, true⟩) ∧ after = before

theorem appendsOneOrNothing (ctx : Context) (ownerId portfolioId : UUID) (newTransaction : NewTransaction)
    (fresh : Fresh) (world : World F) :
    AppendsOneOrNothing portfolioId
      ((TransactionService.create ctx ownerId portfolioId newTransaction fresh).run world).1 world
      ((TransactionService.create ctx ownerId portfolioId newTransaction fresh).run world).2 := by
  rw [create_run]
  match decided : admission ctx ownerId portfolioId newTransaction fresh world.store with
  | .error raised => exact .inr ⟨by simp, rfl⟩
  | .ok ⟨t, false⟩ => exact .inr ⟨by simp, rfl⟩
  | .ok ⟨t, true⟩ =>
    obtain ⟨_, rfl⟩ := Accepts.of_admit decided
    exact .inl ⟨t, rfl, rfl, rfl, rowsOf_append_own _, fun other different => rowsOf_append_other different.symm _⟩

variable [FloatArithmetic F]

/-- Whatever calls the services have answered since the store was empty, every ledger is sound and
never short, the next creation appends one transaction or nothing, and what is stored stays. -/
theorem ledger_invariant (wiring : Wiring) (calls : List (Call F)) :
    (∀ ctx portfolioId, SoundLedger ((runCalls ctx wiring {} calls).store.ledger portfolioId)) ∧
    (∀ portfolioId, NeverShort ((runCalls .exact wiring {} calls).store.ledger portfolioId)) ∧
    (∀ ctx ownerId portfolioId newTransaction fresh,
      let reached := runCalls ctx wiring {} calls
      let (outcome, after) :=
        (TransactionService.create ctx ownerId portfolioId newTransaction fresh).run reached
      AppendsOneOrNothing portfolioId outcome reached after) ∧
    (∀ ctx (later : List (Call F)),
      (runCalls ctx wiring {} calls).store.transactions <+:
        (runCalls ctx wiring {} (calls ++ later)).store.transactions) := by
  refine ⟨fun ctx portfolioId => ?_, fun portfolioId => ?_, fun ctx ownerId portfolioId newTransaction fresh => ?_,
    fun ctx later => ?_⟩
  · have sound := (runCalls_grows ctx wiring {} calls).sound fun _ => .nil
    exact (sound portfolioId).perm (ledgerSorted_perm _)
  · have start : NeverShort [] := fun symbol => by simp
    exact (runCalls_grows .exact wiring {} calls).neverShort (fun _ => start) portfolioId
  · exact appendsOneOrNothing ctx ownerId portfolioId newTransaction fresh _
  · unfold runCalls
    rw [List.foldl_append]
    exact (runCalls_grows ctx wiring _ later).keeps_rows

end LedgerLens

import LedgerLens.Refusals

namespace LedgerLens
open TransactionImportService (commitOutcome commitRow)
open Decimal (Context)
open Checked (OnlyRaises)
variable {F : Type}

/-- The transaction a row reports as created. -/
def TransactionImportRowResult.createdTransaction (row : TransactionImportRowResult) : Option Transaction :=
  if row.status = .created then row.transaction else none

/-- A row of a report for its candidate. -/
structure RowReport (candidate : TransactionImportCandidate) (row : TransactionImportRowResult) : Prop where
  rowNumber : row.rowNumber = candidate.rowNumber
  externalId : row.externalId = candidate.externalId
  status : row.status = .created ∨ row.status = .replayed ∨ row.status = .failed
  transaction_of_created : row.status = .created → row.transaction.isSome

theorem rowReport_failed (candidate : TransactionImportCandidate) (issue : Option TransactionImportIssue) :
    RowReport candidate (importRowResult candidate .failed none issue) :=
  ⟨rfl, rfl, .inr (.inr rfl), fun created => nomatch created⟩

theorem rowReport_stored (candidate : TransactionImportCandidate) (creation : TransactionCreation) :
    RowReport candidate (importRowResult candidate (if creation.created then .created else .replayed)
      (some creation.transaction) none) := by
  refine ⟨rfl, rfl, ?_, fun _ => rfl⟩
  cases creation.created
  · exact .inr (.inl rfl)
  · exact .inl rfl

/-- The store with further rows behind the others. -/
def Store.extend (store : Store F) (rows : List Transaction) : Store F :=
  { store with transactions := store.transactions ++ rows }

theorem Store.extend_nil (store : Store F) : store.extend [] = store :=
  congrArg (fun rows => { store with transactions := rows }) (List.append_nil store.transactions)

theorem Store.extend_extend (store : Store F) (rows more : List Transaction) :
    (store.extend rows).extend more = store.extend (rows ++ more) :=
  congrArg (fun rows => { store with transactions := rows }) (List.append_assoc store.transactions rows more)

/-- A refused or admitted row is reported, and what it stored is what it reports as created. -/
theorem commitOutcome_reports (candidate : TransactionImportCandidate)
    {decision : Except Error TransactionCreation} (refuses : OnlyRaises Error.IsRefusal decision)
    (store : Store F) :
    ∃ row, commitOutcome candidate decision = .ok row ∧ RowReport candidate row ∧
      settleCreation decision store = store.extend row.createdTransaction.toList := by
  match decision with
  | .ok ⟨t, true⟩ => exact ⟨_, rfl, rowReport_stored candidate ⟨t, true⟩, rfl⟩
  | .ok ⟨t, false⟩ => exact ⟨_, rfl, rowReport_stored candidate ⟨t, false⟩, store.extend_nil.symm⟩
  | .error raised =>
    cases refuses raised rfl with
    | invalidTransaction message => exact ⟨_, rfl, rowReport_failed _ _, store.extend_nil.symm⟩
    | conflict portfolioId externalId => exact ⟨_, rfl, rowReport_failed _ _, store.extend_nil.symm⟩

variable [UnicodeDatabase]

/-- For the owner of a sound ledger, a request that fits into UTC is admitted or refused. -/
theorem admit_refuses (ctx : Context) {ownerId portfolioId : UUID} {newTransaction : NewTransaction}
    (fresh : Fresh) {store : Store F} (owned : store.owns ownerId portfolioId)
    (sound : SoundLedger (store.rows portfolioId)) (convertible : Convertible newTransaction.occurredAt) :
    OnlyRaises Error.IsRefusal (admission ctx ownerId portfolioId newTransaction fresh store) := by
  obtain ⟨portfolio, passed⟩ := owned_of_owns owned
  unfold admission decideRequest
  rw [passed, Checked.ok_bind]
  refine .bind (buildTransaction_refuses convertible) fun t built => .bind (validateTransaction_refuses t)
    fun _ checked => ?_
  have valid := validateTransaction_eq_ok.mp checked
  split
  · split
    · exact .ok _
    · exact .error (.conflict _ _)
  · refine .bind (derivePositions_refuses ctx ?_) fun _ _ => .ok _
    intro other member
    rcases List.mem_append.mp member with stored | added
    · rw [DateTime.astimezoneUtc_of_isUtc (sound.utc other (StableSort.mem_sortOn.mp stored))]
      rfl
    · cases List.mem_singleton.mp added
      have utc := (BuiltFrom.of_eq_ok built)
      by_cases aware : newTransaction.occurredAt.isAware
      · rw [DateTime.astimezoneUtc_of_isUtc (utc.occurredAt_of_aware aware).1]
        rfl
      · have naive := utc.occurredAt_of_naive aware
        exact absurd (naive ▸ valid.occurredAt) aware

/-- One row of an import, as it is decided from the store. -/
theorem commitRow_run (ctx : Context) (ownerId portfolioId : UUID) {candidate : TransactionImportCandidate}
    {newTransaction : NewTransaction} (readable : candidate.readable = some newTransaction) (fresh : Fresh)
    (world : World F) :
    (commitRow ctx ownerId portfolioId candidate fresh).run world =
      (commitOutcome candidate (admission ctx ownerId portfolioId newTransaction fresh world.store),
        world.update (settleCreation (admission ctx ownerId portfolioId newTransaction fresh world.store))) := by
  simp only [commitRow, readable, Program.bind_run, Program.attempt_run, create_run,
    Program.lift_run]

theorem commitRow_run_unread (ctx : Context) (ownerId portfolioId : UUID) {candidate : TransactionImportCandidate}
    (unread : candidate.readable = none) (fresh : Fresh) (world : World F) :
    (commitRow ctx ownerId portfolioId candidate fresh).run world =
      (.ok (importRowResult candidate .failed none none), world) := by
  simp only [commitRow, unread, Program.pure_run]

/-- The rows of a store are sound, portfolio by portfolio. -/
def SoundStore (store : Store F) : Prop := ∀ portfolioId, SoundLedger (store.rows portfolioId)

section Rows
variable (ctx : Context) (ownerId portfolioId : UUID) (fresh : Nat → Fresh)

/-- The loop of `commit` over candidates numbered from some row on. -/
abbrev commitRows (candidates : List (TransactionImportCandidate × Nat)) :
    Service F (List TransactionImportRowResult) :=
  Program.collect (fun row => commitRow ctx ownerId portfolioId row.1 (fresh row.2)) candidates

theorem commitRow_keeps (candidate : TransactionImportCandidate) (stamp : Fresh) {world : World F}
    (owned : world.store.owns ownerId portfolioId) (sound : SoundStore world.store) :
    ((commitRow ctx ownerId portfolioId candidate stamp).run world).2.store.owns ownerId portfolioId ∧
      SoundStore ((commitRow ctx ownerId portfolioId candidate stamp).run world).2.store := by
  refine ⟨?_, ((TransactionImportService.commitRow_grows ..).step world).sound sound⟩
  cases readable : candidate.readable with
  | none => rwa [commitRow_run_unread _ _ _ readable]
  | some newTransaction => rwa [commitRow_run _ _ _ readable, World.update_store, settleCreation_owns]

theorem commitRow_reports {candidate : TransactionImportCandidate} (stamp : Fresh) {world : World F}
    (owned : world.store.owns ownerId portfolioId) (sound : SoundStore world.store)
    (convertible : ∀ newTransaction ∈ candidate.readable, Convertible newTransaction.occurredAt) :
    ∃ row, (commitRow ctx ownerId portfolioId candidate stamp).run world =
        (.ok row, world.update fun store => store.extend row.createdTransaction.toList) ∧
      RowReport candidate row := by
  cases readable : candidate.readable with
  | none =>
    refine ⟨_, ?_, rowReport_failed candidate none⟩
    rw [commitRow_run_unread _ _ _ readable]
    exact congrArg (fun store => (_, { world with store := store })) world.store.extend_nil.symm
  | some newTransaction =>
    have refuses := admit_refuses ctx stamp owned (sound portfolioId) (convertible newTransaction readable)
    obtain ⟨row, outcome, reports, stored⟩ := commitOutcome_reports candidate refuses world.store
    refine ⟨row, ?_, reports⟩
    rw [commitRow_run _ _ _ readable, outcome]
    exact congrArg (fun store => (_, { world with store := store })) stored

/-- With every time convertible, the loop reports each row and stores the created ones. -/
theorem commitRows_reports {candidates : List (TransactionImportCandidate × Nat)} (world : World F)
    (owned : world.store.owns ownerId portfolioId) (sound : SoundStore world.store)
    (convertible : ∀ row ∈ candidates, ∀ newTransaction ∈ row.1.readable, Convertible newTransaction.occurredAt) :
    ∃ rows, (commitRows ctx ownerId portfolioId fresh candidates).run world =
        (.ok rows, world.update fun store =>
          store.extend (rows.filterMap TransactionImportRowResult.createdTransaction)) ∧
      List.Forall₂ RowReport (candidates.map Prod.fst) rows := by
  induction candidates generalizing world with
  | nil => exact ⟨[], congrArg (fun store => (_, { world with store := store })) world.store.extend_nil.symm, .nil⟩
  | cons candidate rest ih =>
    obtain ⟨head, tail⟩ := List.forall_mem_cons.mp convertible
    obtain ⟨row, first, reports⟩ := commitRow_reports ctx ownerId portfolioId (fresh candidate.2) owned sound head
    obtain ⟨stillOwned, stillSound⟩ :=
      commitRow_keeps ctx ownerId portfolioId candidate.1 (fresh candidate.2) owned sound
    rw [first] at stillOwned stillSound
    obtain ⟨rows, run, later⟩ := ih _ stillOwned stillSound tail
    refine ⟨row :: rows, ?_, .cons reports later⟩
    have stored : (row :: rows).filterMap TransactionImportRowResult.createdTransaction =
        row.createdTransaction.toList ++ rows.filterMap TransactionImportRowResult.createdTransaction := by
      cases created : row.createdTransaction <;> simp [created]
    rw [commitRows, Program.collect, Program.bind_ok first, Program.bind_ok run, stored]
    exact congrArg (fun store => (_, { world with store := store })) (world.store.extend_extend _ _)

/-- A loop that reports every row has met convertible times only. -/
theorem commitRows_convertible {candidates : List (TransactionImportCandidate × Nat)} (world : World F)
    {after : World F}
    {rows : List TransactionImportRowResult} (owned : world.store.owns ownerId portfolioId)
    (sound : SoundStore world.store)
    (run : (commitRows ctx ownerId portfolioId fresh candidates).run world = (.ok rows, after)) :
    ∀ row ∈ candidates, ∀ newTransaction ∈ row.1.readable, Convertible newTransaction.occurredAt := by
  induction candidates generalizing world after rows with
  | nil => simp
  | cons candidate rest ih =>
    obtain ⟨row, next, first, run⟩ := Program.bind_eq_ok.mp run
    obtain ⟨later, final, run, _⟩ := Program.bind_eq_ok.mp run
    obtain ⟨stillOwned, stillSound⟩ :=
      commitRow_keeps ctx ownerId portfolioId candidate.1 (fresh candidate.2) owned sound
    rw [first] at stillOwned stillSound
    refine List.forall_mem_cons.mpr ⟨fun newTransaction readable => ?_, ?_⟩
    · by_contra overflows
      obtain ⟨portfolio, passed⟩ := owned_of_owns owned
      have raised : admission ctx ownerId portfolioId newTransaction (fresh candidate.2) world.store =
          .error .overflowError := by
        rw [admission, passed, Checked.ok_bind, decideRequest, buildTransaction_overflows overflows, Checked.error_bind]
      rw [commitRow_run _ _ _ readable, raised] at first
      cases congrArg Prod.fst first
    · exact ih _ stillOwned stillSound run

end Rows
end LedgerLens

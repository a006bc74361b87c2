import LedgerLens.ExactlyOnce
import LedgerLens.SameDecisions

namespace LedgerLens
open TransactionImportService (commitOutcome commitRow)
open Decimal (Context)

section Retrying
variable {F : Type} [UnicodeDatabase]

theorem Transaction.Built.recorded {t : Transaction} (built : t.Built) :
    ∃ createdAt, t.createdAt = some createdAt ∧ createdAt.isAware := by
  obtain ⟨newTransaction, fresh, built⟩ := built
  exact ⟨fresh.now, (BuiltFrom.of_eq_ok built).createdAt_eq, fresh.aware⟩

theorem ReachedStore.sameEvent_refl {store : Store F} (reached : ReachedStore store) {portfolioId : UUID}
    {t : Transaction} (stored : t ∈ store.rows portfolioId) : SameEvent t t := by
  obtain ⟨createdAt, stamped, aware⟩ := (reached.built portfolioId t stored).1.recorded
  refine .refl fun other known => ?_
  cases Option.some.inj (stamped.symm.trans known)
  exact aware

/-- With a clock later than everything stored, the stamp of a request only shows in what it creates. -/
theorem admit_restamp (ctx : Context) {ownerId portfolioId : UUID} (newTransaction : NewTransaction)
    {fresh fresh' : Fresh} {store : Store F} (reached : ReachedStore store)
    (before : RecordedBefore (store.rows portfolioId) fresh.now)
    (before' : RecordedBefore (store.rows portfolioId) fresh'.now) :
    SameDecision (fun t t' => t = t' ∧ SameEvent t t') (admission ctx ownerId portfolioId newTransaction fresh store)
      (admission ctx ownerId portfolioId newTransaction fresh' store) := by
  have recorded : ∀ t ∈ store.rows portfolioId, ∃ createdAt, t.createdAt = some createdAt ∧ createdAt.isAware :=
    fun t member => (reached.built portfolioId t member).1.recorded
  have inLedger : ∀ {P : Transaction → Prop}, (∀ t ∈ store.rows portfolioId, P t) →
      ∀ t ∈ store.ledger portfolioId, P t :=
    fun all t member => all t (StableSort.mem_sortOn.mp member)
  unfold admission
  cases owned : requireOwned ownerId portfolioId (store.portfolios.get? portfolioId) with
  | error raised => exact .refused raised
  | ok portfolio =>
    rw [Checked.ok_bind, Checked.ok_bind]
    refine decideRequest_same ctx portfolioId newTransaction (fun t t' both => both.2) ?_ ?_
    · intro externalId
      cases found : store.byExternalId portfolioId externalId with
      | none => exact .none
      | some t => exact .some ⟨rfl, reached.sameEvent_refl (mem_rows_of_byExternalId found).1⟩
    · intro t t' same utc valid stamped stamped'
      have aligned := (Aligned.refl (inLedger recorded)).snoc same stamped stamped' (inLedger before) (inLedger before')
      refine aligned.derivePositions_eq ctx (List.forall_mem_append.mpr ⟨?_, List.forall_mem_singleton.mpr utc⟩)
      exact inLedger (reached.sound portfolioId).utc

section Passes
variable (ctx : Context) (ownerId portfolioId : UUID)

/-- The external ids that a document asks for. -/
def requestedIds (candidates : List (TransactionImportCandidate × Nat)) : List String :=
  candidates.filterMap fun row => row.1.readable.map fun newTransaction => Text.strip newTransaction.externalId

/-- A row adds at most one transaction: to its portfolio, under its external id and stamp. -/
theorem commitRow_adds (candidate : TransactionImportCandidate) (fresh : Fresh) (world : World F) :
    ∃ added, ((commitRow ctx ownerId portfolioId candidate fresh).run world).2.store = world.store.extend added ∧
      ∀ t ∈ added, t.portfolioId = portfolioId ∧
        (∃ newTransaction ∈ candidate.readable, t.externalId = Text.strip newTransaction.externalId) ∧
        t.createdAt = some fresh.now := by
  have nothing := world.store.extend_nil.symm
  cases readable : candidate.readable with
  | none =>
    rw [commitRow_run_unread _ _ _ readable]
    exact ⟨[], nothing, by simp⟩
  | some newTransaction =>
    rw [commitRow_run _ _ _ readable]
    match decided : admission ctx ownerId portfolioId newTransaction fresh world.store with
    | .error raised => exact ⟨[], nothing, by simp⟩
    | .ok ⟨t, false⟩ => exact ⟨[], nothing, by simp⟩
    | .ok ⟨t, true⟩ =>
      refine ⟨[t], rfl, List.forall_mem_singleton.mpr ?_⟩
      have from_request := BuiltFrom.of_eq_ok (admit_created decided).built
      exact ⟨from_request.portfolioId_eq, ⟨newTransaction, rfl, from_request.externalId_eq⟩,
        from_request.createdAt_eq⟩

/-- A pass over a document adds rows of its portfolio under the document's external ids. -/
theorem commitRows_adds (fresh : Nat → Fresh) (candidates : List (TransactionImportCandidate × Nat))
    (world : World F) :
    ∃ added, ((commitRows ctx ownerId portfolioId fresh candidates).run world).2.store = world.store.extend added ∧
      ∀ t ∈ added, t.portfolioId = portfolioId ∧ t.externalId ∈ requestedIds candidates ∧
        ∃ row ∈ candidates, t.createdAt = some (fresh row.2).now := by
  induction candidates generalizing world with
  | nil => exact ⟨[], world.store.extend_nil.symm, by simp⟩
  | cons candidate rest ih =>
    obtain ⟨added, stored, each⟩ := commitRow_adds ctx ownerId portfolioId candidate.1 (fresh candidate.2) world
    have here : ∀ t ∈ added, t.portfolioId = portfolioId ∧ t.externalId ∈ requestedIds (candidate :: rest) ∧
        ∃ row ∈ candidate :: rest, t.createdAt = some (fresh row.2).now := by
      intro t member
      obtain ⟨own, ⟨newTransaction, readable, requested⟩, stamped⟩ := each t member
      refine ⟨own, ?_, candidate, List.mem_cons_self, stamped⟩
      exact List.mem_filterMap.mpr ⟨candidate, List.mem_cons_self, by rw [readable, requested]; rfl⟩
    rw [commitRows, Program.collect_cons_state]
    rcases first : (commitRow ctx ownerId portfolioId candidate.1 (fresh candidate.2)).run world with
      ⟨raised | row, next⟩
    · rw [first] at stored
      exact ⟨added, stored, here⟩
    · rw [first] at stored
      obtain ⟨more, later, rows⟩ := ih next
      refine ⟨added ++ more, ?_, List.forall_mem_append.mpr ⟨here, fun t member => ?_⟩⟩
      · exact later.trans (stored ▸ world.store.extend_extend added more)
      · obtain ⟨own, requested, row, listed, stamped⟩ := rows t member
        obtain ⟨source, among, asked⟩ := List.mem_filterMap.mp requested
        exact ⟨own, List.mem_filterMap.mpr ⟨source, List.mem_cons_of_mem _ among, asked⟩, row,
          List.mem_cons_of_mem _ listed, stamped⟩

omit [UnicodeDatabase] in
theorem Store.rows_extend (store : Store F) (added : List Transaction) (portfolioId : UUID) :
    (store.extend added).rows portfolioId = store.rows portfolioId ++ rowsOf portfolioId added :=
  List.filter_append _ _

omit [UnicodeDatabase] in
theorem Store.extend_eq_self {store : Store F} {added : List Transaction} (same : store.extend added = store) :
    added = [] := by
  have rows := congrArg Store.transactions same
  exact List.append_right_eq_self.mp rows

/-- A row that stores nothing does the same under another stamp. -/
theorem commitRow_fruitless {candidate : TransactionImportCandidate} {fresh fresh' : Fresh} {world world' : World F}
    (sameStore : world'.store = world.store) (reached : ReachedStore world.store)
    (before : RecordedBefore (world.store.rows portfolioId) fresh.now)
    (before' : RecordedBefore (world.store.rows portfolioId) fresh'.now)
    (fruitless : ((commitRow ctx ownerId portfolioId candidate fresh).run world).2.store = world.store) :
    ((commitRow ctx ownerId portfolioId candidate fresh').run world').1 =
        ((commitRow ctx ownerId portfolioId candidate fresh).run world).1 ∧
      ((commitRow ctx ownerId portfolioId candidate fresh').run world').2.store = world.store := by
  cases readable : candidate.readable with
  | none =>
    rw [commitRow_run_unread _ _ _ readable, commitRow_run_unread _ _ _ readable]
    exact ⟨rfl, sameStore⟩
  | some newTransaction =>
    have same : SameDecision _ (admission ctx ownerId portfolioId newTransaction fresh world.store)
        (admission ctx ownerId portfolioId newTransaction fresh' world.store) :=
      admit_restamp ctx newTransaction reached before before'
    rw [commitRow_run _ _ _ readable] at fruitless ⊢
    rw [commitRow_run _ _ _ readable, World.update_store, sameStore]
    rw [World.update_store] at fruitless
    generalize admission ctx ownerId portfolioId newTransaction fresh world.store = decision,
      admission ctx ownerId portfolioId newTransaction fresh' world.store = decision' at same fruitless ⊢
    cases same with
    | refused raised => exact ⟨rfl, rfl⟩
    | replayed both =>
      cases both.1
      exact ⟨rfl, rfl⟩
    | created event => exact absurd (Store.extend_eq_self fruitless) (List.cons_ne_nil _ _)

/-- A pass that stores nothing stores nothing under other stamps either. -/
theorem commitRows_fruitless {fresh fresh' : Nat → Fresh} {candidates : List (TransactionImportCandidate × Nat)}
    (world world' : World F) (sameStore : world'.store = world.store) (reached : ReachedStore world.store)
    (before : ∀ row ∈ candidates, RecordedBefore (world.store.rows portfolioId) (fresh row.2).now)
    (before' : ∀ row ∈ candidates, RecordedBefore (world.store.rows portfolioId) (fresh' row.2).now)
    (fruitless : ((commitRows ctx ownerId portfolioId fresh candidates).run world).2.store = world.store) :
    ((commitRows ctx ownerId portfolioId fresh' candidates).run world').2.store = world.store := by
  induction candidates generalizing world world' with
  | nil => exact sameStore
  | cons candidate rest ih =>
    obtain ⟨head, tail⟩ := List.forall_mem_cons.mp before
    obtain ⟨head', tail'⟩ := List.forall_mem_cons.mp before'
    obtain ⟨added, stored, _⟩ := commitRow_adds ctx ownerId portfolioId candidate.1 (fresh candidate.2) world
    -- the row adds nothing, as whatever it added would still be there at the end of the pass
    have kept : ((commitRow ctx ownerId portfolioId candidate.1 (fresh candidate.2)).run world).2.store =
        world.store := by
      rw [commitRows, Program.collect_cons_state] at fruitless
      rcases first : (commitRow ctx ownerId portfolioId candidate.1 (fresh candidate.2)).run world with
        ⟨raised | row, next⟩
      · rw [first] at fruitless
        exact fruitless
      · rw [first] at fruitless stored
        obtain ⟨more, later, _⟩ := commitRows_adds ctx ownerId portfolioId fresh rest next
        rw [stored, Store.extend_extend] at later
        have nothing := List.append_eq_nil_iff.mp (Store.extend_eq_self (later.symm.trans fruitless))
        rw [stored, nothing.1, Store.extend_nil]
    obtain ⟨sameRow, kept'⟩ := commitRow_fruitless ctx ownerId portfolioId sameStore reached head head' kept
    rw [commitRows, Program.collect_cons_state] at fruitless ⊢
    rcases first : (commitRow ctx ownerId portfolioId candidate.1 (fresh candidate.2)).run world with
      ⟨raised | row, next⟩
    · rcases first' : (commitRow ctx ownerId portfolioId candidate.1 (fresh' candidate.2)).run world' with
        ⟨raised' | row', next'⟩
      · rw [first'] at kept'
        exact kept'
      · rw [first, first'] at sameRow
        cases sameRow
    · rcases first' : (commitRow ctx ownerId portfolioId candidate.1 (fresh' candidate.2)).run world' with
        ⟨raised' | row', next'⟩
      · rw [first, first'] at sameRow
        cases sameRow
      · rw [first] at kept fruitless
        rw [first'] at kept'
        simp only at kept kept' fruitless ⊢
        rw [← kept] at reached tail tail' fruitless ⊢
        exact ih _ _ (kept'.trans kept.symm) reached tail tail' fruitless

/-- The stored rows of a portfolio whose external ids a document asks for. -/
def servedRows (candidates : List (TransactionImportCandidate × Nat)) (store : Store F) : List Transaction :=
  (store.rows portfolioId).filter fun t => t.externalId ∈ requestedIds candidates

/-- A document of so many rows is served after storing so many transactions. -/
theorem servedRows_length_le (candidates : List (TransactionImportCandidate × Nat)) {store : Store F}
    (reached : ReachedStore store) : (servedRows portfolioId candidates store).length ≤ candidates.length := by
  have distinct : ((servedRows portfolioId candidates store).map Transaction.externalId).Nodup :=
    (reached.sound portfolioId).externalIds.sublist (List.filter_sublist.map _)
  have requested : (servedRows portfolioId candidates store).map Transaction.externalId ⊆ requestedIds candidates := by
    intro externalId listed
    obtain ⟨t, member, rfl⟩ := List.mem_map.mp listed
    simpa using (List.mem_filter.mp member).2
  calc (servedRows portfolioId candidates store).length
      = ((servedRows portfolioId candidates store).map Transaction.externalId).length := List.length_map _ |>.symm
    _ ≤ (requestedIds candidates).length := (List.subperm_of_subset distinct requested).length_le
    _ ≤ candidates.length := List.length_filterMap_le _ _

/-- A pass that stores something serves more of the document. -/
theorem servedRows_length_lt {fresh : Nat → Fresh} {candidates : List (TransactionImportCandidate × Nat)}
    {world : World F}
    (fruitful : ((commitRows ctx ownerId portfolioId fresh candidates).run world).2.store ≠ world.store) :
    (servedRows portfolioId candidates world.store).length <
      (servedRows portfolioId candidates
        ((commitRows ctx ownerId portfolioId fresh candidates).run world).2.store).length := by
  obtain ⟨added, stored, each⟩ := commitRows_adds ctx ownerId portfolioId fresh candidates world
  have nonempty : added ≠ [] := by
    rintro rfl
    exact fruitful (stored.trans world.store.extend_nil)
  have kept : rowsOf portfolioId added = added :=
    List.filter_eq_self.mpr fun t member => by simpa using (each t member).1
  have served : (added.filter fun t => t.externalId ∈ requestedIds candidates) = added :=
    List.filter_eq_self.mpr fun t member => by simpa using (each t member).2.1
  rw [stored, servedRows, servedRows, Store.rows_extend, kept, List.filter_append, served, List.length_append]
  exact Nat.lt_add_of_pos_right (List.length_pos_iff.mpr nonempty)

end Passes

section Recommits
variable (ctx : Context) (parser : TransactionCsvParser) (ownerId portfolioId : UUID) (csvData : List UInt8)

/-- The world after a document has been committed a number of times, with nothing in between. -/
def recommit (stamps : Nat → Nat → Fresh) (world : World F) : Nat → World F
  | 0 => world
  | k + 1 =>
    ((TransactionImportService.commit ctx parser ownerId portfolioId csvData (stamps k)).run
      (recommit stamps world k)).2

/-- The clock of a run of commits of one document: later than everything stored before it, and later
in each commit than in the ones before. -/
structure ClockAdvances (stamps : Nat → Nat → Fresh) (store : Store F) (rows : Nat) : Prop where
  stored : ∀ k ≤ rows, ∀ i < rows, RecordedBefore (store.rows portfolioId) (stamps k i).now
  strict : ∀ k k' i i', k < k' → k' ≤ rows → i < rows → i' < rows →
    (stamps k i).now.instant < (stamps k' i').now.instant

variable (stamps : Nat → Nat → Fresh) {world : World F} {candidates : List TransactionImportCandidate}

omit [UnicodeDatabase] in
theorem zipIdx_lt {row : TransactionImportCandidate × Nat} (member : row ∈ candidates.zipIdx) :
    row.2 < candidates.length := by
  have bound := (List.mem_zipIdx member).2.1
  omega

theorem recommit_reached (reached : ReachedStore world.store) (k : Nat) :
    ReachedStore (recommit ctx parser ownerId portfolioId csvData stamps world k).store := by
  induction k with
  | zero => exact reached
  | succ k ih => exact ((TransactionImportService.commit_grows ..).step _).reached ih

/-- A commit of an accepted document is one pass over it, if the portfolio is the caller's. -/
theorem recommit_store (world : World F) (parsed : parser csvData = .ok candidates) (k : Nat) :
    (recommit ctx parser ownerId portfolioId csvData stamps world (k + 1)).store =
      if (recommit ctx parser ownerId portfolioId csvData stamps world k).store.owns ownerId portfolioId then
        ((commitRows ctx ownerId portfolioId (stamps k) candidates.zipIdx).run
          ((recommit ctx parser ownerId portfolioId csvData stamps world k).record (.parsed csvData))).2.store
      else (recommit ctx parser ownerId portfolioId csvData stamps world k).store := by
  rw [recommit]
  generalize recommit ctx parser ownerId portfolioId csvData stamps world k = current
  split
  · next owned => rw [commit_run ctx (stamps k) owned parsed, Program.map_run]
  · next foreign => rw [TransactionImportService.commit, Program.bind_error (assertOwned_foreign foreign)]

/-- The clock of a later commit is later than everything stored by then. -/
theorem recommit_recorded (parsed : parser csvData = .ok candidates)
    (clock : ClockAdvances portfolioId stamps world.store candidates.length) {k k' : Nat} (order : k ≤ k')
    (last : k' ≤ candidates.length) {i : Nat} (bound : i < candidates.length) :
    RecordedBefore ((recommit ctx parser ownerId portfolioId csvData stamps world k).store.rows portfolioId)
      (stamps k' i).now := by
  induction k with
  | zero => exact clock.stored k' last i bound
  | succ k ih =>
    rw [recommit_store ctx parser ownerId portfolioId csvData stamps world parsed]
    have before := ih (by omega)
    split
    · obtain ⟨added, stored, each⟩ := commitRows_adds ctx ownerId portfolioId (stamps k) candidates.zipIdx
        ((recommit ctx parser ownerId portfolioId csvData stamps world k).record (.parsed csvData))
      rw [stored, World.record_store, Store.rows_extend]
      refine List.forall_mem_append.mpr ⟨before, fun t member createdAt recorded => ?_⟩
      obtain ⟨_, _, row, listed, stamped⟩ := each t (List.mem_of_mem_filter member)
      rw [stamped] at recorded
      cases recorded
      exact clock.strict k k' row.2 i (by omega) last (zipIdx_lt listed) bound
    · exact before

/-- After a commit that stores nothing, the store stays as it is. -/
theorem recommit_stays (parsed : parser csvData = .ok candidates) (reached : ReachedStore world.store)
    (clock : ClockAdvances portfolioId stamps world.store candidates.length) {j k : Nat} (order : j ≤ k)
    (last : k ≤ candidates.length + 1)
    (fruitless : (recommit ctx parser ownerId portfolioId csvData stamps world (j + 1)).store =
      (recommit ctx parser ownerId portfolioId csvData stamps world j).store) :
    (recommit ctx parser ownerId portfolioId csvData stamps world k).store =
      (recommit ctx parser ownerId portfolioId csvData stamps world j).store := by
  induction k, order using Nat.le_induction with
  | base => rfl
  | succ k order ih =>
    have here := ih (by omega)
    rw [recommit_store ctx parser ownerId portfolioId csvData stamps world parsed, here]
    rw [recommit_store ctx parser ownerId portfolioId csvData stamps world parsed] at fruitless
    split
    · next owned =>
      rw [if_pos owned] at fruitless
      refine commitRows_fruitless ctx ownerId portfolioId
        ((recommit ctx parser ownerId portfolioId csvData stamps world j).record (.parsed csvData)) _ here
        (recommit_reached ctx parser ownerId portfolioId csvData stamps reached j)
        (fun row listed => ?_) (fun row listed => ?_) fruitless
      · exact recommit_recorded ctx parser ownerId portfolioId csvData stamps parsed clock le_rfl (by omega)
          (zipIdx_lt listed)
      · exact recommit_recorded ctx parser ownerId portfolioId csvData stamps parsed clock order (by omega)
          (zipIdx_lt listed)
    · rfl

/-- Until a commit stores nothing, every commit serves one more row of the document. -/
theorem recommit_serves (world : World F) (parsed : parser csvData = .ok candidates) (k : Nat) :
    (∃ j < k, (recommit ctx parser ownerId portfolioId csvData stamps world (j + 1)).store =
        (recommit ctx parser ownerId portfolioId csvData stamps world j).store) ∨
      k ≤ (servedRows portfolioId candidates.zipIdx
        (recommit ctx parser ownerId portfolioId csvData stamps world k).store).length := by
  induction k with
  | zero => exact .inr (Nat.zero_le _)
  | succ k ih =>
    rcases ih with ⟨j, before, fruitless⟩ | served
    · exact .inl ⟨j, by omega, fruitless⟩
    · by_cases fruitless : (recommit ctx parser ownerId portfolioId csvData stamps world (k + 1)).store =
        (recommit ctx parser ownerId portfolioId csvData stamps world k).store
      · exact .inl ⟨k, by omega, fruitless⟩
      · right
        have pass := recommit_store ctx parser ownerId portfolioId csvData stamps world parsed k
        split at pass
        · rw [pass] at fruitless ⊢
          exact Nat.succ_le_of_lt (served.trans_lt (servedRows_length_lt ctx ownerId portfolioId fruitless))
        · exact absurd pass fruitless

/-- Committing a document of `n` rows `n + 1` times stores nothing in the last commit. -/
theorem recommit_converges (parsed : parser csvData = .ok candidates) (reached : ReachedStore world.store)
    (clock : ClockAdvances portfolioId stamps world.store candidates.length) :
    (recommit ctx parser ownerId portfolioId csvData stamps world (candidates.length + 1)).store =
      (recommit ctx parser ownerId portfolioId csvData stamps world candidates.length).store := by
  rcases recommit_serves ctx parser ownerId portfolioId csvData stamps world parsed (candidates.length + 1) with
    ⟨j, before, fruitless⟩ | served
  · have stays := fun k order last =>
      recommit_stays ctx parser ownerId portfolioId csvData stamps parsed reached clock (k := k) order last fruitless
    exact (stays (candidates.length + 1) (by omega) le_rfl).trans (stays candidates.length (by omega) (by omega)).symm
  · have bound := servedRows_length_le portfolioId candidates.zipIdx
      (recommit_reached ctx parser ownerId portfolioId csvData stamps reached (candidates.length + 1))
    rw [List.length_zipIdx] at bound
    omega

end Recommits

/-- A report that is returned accounts for every row. -/
theorem commit_accounts {ctx : Context} {parser : TransactionCsvParser} {ownerId portfolioId : UUID}
    {csvData : List UInt8} {fresh : Nat → Fresh} {world after : World F} {report : TransactionImportCommit}
    (reached : ReachedStore world.store)
    (run : (TransactionImportService.commit ctx parser ownerId portfolioId csvData fresh).run world =
      (.ok report, after)) :
    ∃ candidates, parser csvData = .ok candidates ∧ AccountsForRows candidates world.store after.store report := by
  obtain ⟨owned, candidates, _, parsed, _, _⟩ := commit_eq_ok run
  refine ⟨candidates, parsed, ?_⟩
  obtain ⟨report, final, rerun, accounts⟩ :=
    (commit_accounts_iff ctx fresh owned reached.sound parsed).mpr (commit_convertible reached run parsed)
  cases run.symm.trans rerun
  exact accounts

variable [FloatArithmetic F]

/-- Once a transaction has been reported, it stays the only one stored under its external id, and every row or request
that is processed later under that id gets it back or is refused. A later request is answered so exactly when it does
not repeat the transaction in a document with a time that has no UTC form. A document of `n` rows that is committed
`n + 1` times creates nothing in the last commit. -/
theorem exactly_once_iff (ctx : Context) (wiring : Wiring) :
    (∀ (earlier between : List (Call F)) (first later : Call F) (portfolioId : UUID) (t : Transaction),
      t ∈ reportedTransactions ctx wiring first (runCalls ctx wiring {} earlier) →
      first.request.portfolioId = some portfolioId → later.request.portfolioId = some portfolioId →
      later.ownerId = first.ownerId →
      let world := runCalls ctx wiring {} (earlier ++ first :: between)
      ((world.store.rows portfolioId).filter fun other => other.externalId = t.externalId) = [t] ∧
        RetriesRows ctx wiring.parser t later world ∧
        (AnswersRetry wiring.parser t later.request ((serve ctx wiring later).run world).1 ↔
          CompletesRetry wiring.parser t later.request)) ∧
    (∀ (earlier : List (Call F)) (call : Call F) (response : Response F) (t : Transaction),
      ((serve ctx wiring call).run (runCalls ctx wiring {} earlier)).1 = .ok response → response.Reports t →
        t ∈ reportedTransactions ctx wiring call (runCalls ctx wiring {} earlier)) ∧
    (∀ (earlier : List (Call F)) (ownerId portfolioId : UUID) (csvData : List UInt8) (fresh : Nat → Fresh)
        (candidates : List TransactionImportCandidate), wiring.parser csvData = .ok candidates →
      (candidates.zip (importedRows ctx wiring.parser ownerId portfolioId csvData fresh
          (runCalls ctx wiring {} earlier))).Pairwise fun before later =>
        ∀ t, before.2.transaction = some t → RowRetried t later.1 later.2) ∧
    (∀ (earlier : List (Call F)) (ownerId portfolioId : UUID) (csvData : List UInt8) (stamps : Nat → Nat → Fresh)
        (candidates : List TransactionImportCandidate), wiring.parser csvData = .ok candidates →
      let commits := recommit ctx wiring.parser ownerId portfolioId csvData stamps (runCalls ctx wiring {} earlier)
      ClockAdvances portfolioId stamps (runCalls ctx wiring {} earlier).store candidates.length →
        (commits (candidates.length + 1)).store = (commits candidates.length).store ∧
          ∀ report after, (TransactionImportService.commit ctx wiring.parser ownerId portfolioId csvData
            (stamps candidates.length)).run (commits candidates.length) = (.ok report, after) →
              report.createdRows = 0) := by
  have reachable := fun calls => (runCalls_grows (F := F) ctx wiring {} calls).reached reachedStore_empty
  refine ⟨?_, ?_, ?_, ?_⟩
  · intro earlier between first later portfolioId t reported about again owner world
    obtain ⟨stored, owned⟩ := serve_reported (reachable earlier) about reported
    have split : world =
        runCalls ctx wiring ((serve ctx wiring first).run (runCalls ctx wiring {} earlier)).2 between := by
      simp only [world, runCalls, List.foldl_append, List.foldl_cons]
    have step := (serve_advances ctx wiring first).step (runCalls ctx wiring {} earlier)
    have advances := IsTrans.trans _ _ _ step (runCalls_advances ctx wiring _ between)
    have kept := (runCalls_grows ctx wiring _ between).mem stored
    rw [← split] at advances kept
    have reached := advances.grows.reached (reachable earlier)
    have own : world.store.owns later.ownerId portfolioId := owner ▸ advances.owns _ _ owned
    exact ⟨(reached.sound portfolioId).filter_externalId kept, serve_retries_rows reached again own kept,
      serve_retried_iff reached again own kept⟩
  · intro earlier call response t answered reports
    exact serve_reports (Prod.ext answered rfl) reports
  · intro earlier ownerId portfolioId csvData fresh candidates parsed
    exact importedRows_pairwise (reachable earlier) parsed
  · intro earlier ownerId portfolioId csvData stamps candidates parsed commits clock
    have converged := recommit_converges ctx wiring.parser ownerId portfolioId csvData stamps parsed
      (reachable earlier) clock
    refine ⟨converged, fun report after run => ?_⟩
    obtain ⟨_, _, accounts⟩ := commit_accounts
      (recommit_reached ctx wiring.parser ownerId portfolioId csvData stamps (reachable earlier) _) run
    have last : recommit ctx wiring.parser ownerId portfolioId csvData stamps (runCalls ctx wiring {} earlier)
        (candidates.length + 1) = after := congrArg Prod.snd run
    rw [last, accounts.stored] at converged
    rw [accounts.createdRows_eq, Store.extend_eq_self converged]
    rfl

end Retrying

section Samples

attribute [local instance] Text.asciiDatabase FloatArithmetic.rational

def firstImport : Call ℚ := ⟨⟨1⟩, .commitImport ⟨2⟩ (asciiBytes depositDocument) countingFresh⟩

/-- The deposit again, with the one that overflows behind it. -/
def repeatedImport : Call ℚ :=
  ⟨⟨1⟩, .commitImport ⟨2⟩ (asciiBytes overflowingDocument) fun i => countingFresh (i + 10)⟩

/-- The deposit as it is stored. -/
def depositStored : Transaction where
  id := ⟨100⟩
  portfolioId := ⟨2⟩
  externalId := "first"
  transactionType := .deposit
  occurredAt := .ofInstant (738886 * 86400000000) depositTime_below
  createdAt := some (countingFresh 0).now
  cashAmount := some (.finite false (10 * 10 ^ 8) (-8))
  fees := .finite false 0 (-8)

theorem depositCandidate_repeats : depositCandidate.Repeats depositStored := by
  have amount : SameNumber (some (.finite false 10 0)) depositStored.cashAmount :=
    ⟨rfl, rfl, by norm_num [Decimal.value]⟩
  have fees : SameNumber (some (.finite false 0 0)) (some depositStored.fees) :=
    ⟨rfl, rfl, by norm_num [Decimal.value, depositStored]⟩
  exact ⟨_, rfl, by decide, ⟨rfl, rfl, rfl, rfl, trivial, trivial, amount, fees⟩⟩

/-- A deposit that has been reported is not reported as a replay by the import that repeats it. -/
theorem retry_overflow_escapes :
    let world := runCalls .exact depositWiring {} (depositCalls ++ [firstImport])
    let answer := ((serve .exact depositWiring repeatedImport).run world).1
    depositStored ∈
        reportedTransactions .exact depositWiring firstImport (runCalls .exact depositWiring {} depositCalls) ∧
      (∃ candidates, depositWiring.parser (asciiBytes overflowingDocument) = .ok candidates ∧
        ∃ candidate ∈ candidates, candidate.Repeats depositStored) ∧
      answer = .error .overflowError ∧
      ¬ AnswersRetry depositWiring.parser depositStored repeatedImport.request answer := by
  have owned : (runCalls .exact depositWiring {} depositCalls).store.owns ⟨1⟩ ⟨2⟩ := by decide +kernel
  have accepted : depositWiring.parser (asciiBytes depositDocument) = .ok [depositCandidate] := by decide +kernel
  have parsed : depositWiring.parser (asciiBytes overflowingDocument) = .ok overflowingCandidates := by decide +kernel
  have repeated : ∃ candidate ∈ overflowingCandidates, candidate.Repeats depositStored :=
    ⟨depositCandidate, List.mem_cons_self, depositCandidate_repeats⟩
  have reported : depositStored ∈
      reportedTransactions .exact depositWiring firstImport (runCalls .exact depositWiring {} depositCalls) := by
    simp only [reportedTransactions, firstImport]
    rw [importedRows_of_owned owned accepted]
    decide +kernel
  have raised : ((serve .exact depositWiring repeatedImport).run
      (runCalls .exact depositWiring {} (depositCalls ++ [firstImport]))).1 = .error .overflowError := by
    decide +kernel
  refine ⟨reported, ⟨_, parsed, repeated⟩, raised, fun answers => ?_⟩
  rw [raised] at answers
  rcases answers _ parsed with ⟨report, returned, _⟩ | ⟨_, unrepeated⟩
  · cases returned
  · obtain ⟨candidate, listed, repeats⟩ := repeated
    exact unrepeated candidate listed repeats

end Samples
end LedgerLens

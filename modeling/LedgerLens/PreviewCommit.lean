import LedgerLens.Previews
import LedgerLens.Recommit

namespace LedgerLens
open TransactionImportService (commitOutcome commitRow previewRow previewRows)
open Decimal (Context)

section Prediction
variable {F : Type} [UnicodeDatabase]

/-- The preview's own ledger and dictionary stand for what the commit will have stored by then. -/
structure Foresees (portfolioId : UUID) (state : PreviewState) (store : Store F) : Prop where
  ledger : ∃ recorded, Aligned state.ledger recorded ∧ ledgerSorted recorded = store.ledger portfolioId
  externalIds : ∀ externalId, Option.Rel SameEvent (state.transactionsByExternalId.get? externalId)
    (store.byExternalId portfolioId externalId)

/-- A preview starts from the stored ledger. -/
theorem Foresees.start {store : Store F} (reached : ReachedStore store) (portfolioId : UUID) :
    Foresees portfolioId
      { ledger := store.ledger portfolioId
        transactionsByExternalId := (store.ledger portfolioId).foldl
          (fun byId transaction => byId.set transaction.externalId transaction) .empty } store where
  ledger := by
    refine ⟨store.ledger portfolioId, .refl fun t member => ?_,
      StableSort.sortOn_of_sorted (StableSort.sortOn_sorted _ _)⟩
    exact (reached.built portfolioId t (StableSort.mem_sortOn.mp member)).1.recorded
  externalIds := by
    intro externalId
    have inLedger : ∀ {t}, t ∈ store.ledger portfolioId ↔ t ∈ store.rows portfolioId := StableSort.mem_sortOn
    cases found : store.byExternalId portfolioId externalId with
    | none =>
      have absent := Store.byExternalId_eq_none.mp found
      rw [Dict.get?_foldl_set_of_absent _ _ fun t member => absent t (inLedger.mp member)]
      exact .none
    | some t =>
      obtain ⟨stored, rfl⟩ := mem_rows_of_byExternalId found
      have distinct : ((store.ledger portfolioId).map Transaction.externalId).Nodup :=
        ((StableSort.sortOn_perm _ _).map _).nodup_iff.mpr (reached.sound portfolioId).externalIds
      rw [Dict.get?_foldl_set_of_mem _ _ distinct (inLedger.mpr stored)]
      exact .some (reached.sameEvent_refl stored)

omit [UnicodeDatabase] in
theorem Store.byExternalId_addTransaction (store : Store F) (t : Transaction) (externalId : String) :
    (store.addTransaction t).byExternalId t.portfolioId externalId =
      (store.byExternalId t.portfolioId externalId).or (if t.externalId = externalId then some t else none) := by
  rw [byExternalId, byExternalId, addTransaction, List.find?_append]
  by_cases same : t.externalId = externalId <;> simp [same]

omit [UnicodeDatabase] in
/-- A row that was ready in the preview and created in the commit keeps them in step. -/
theorem Foresees.push {portfolioId : UUID} {state : PreviewState} {store : Store F}
    (foresees : Foresees portfolioId state store) {t t' : Transaction} (same : SameEvent t t')
    (own : t'.portfolioId = portfolioId) {now now' : DateTime} (stamped : t.createdAt = some now)
    (stamped' : t'.createdAt = some now') (before : RecordedBefore state.ledger now)
    (before' : RecordedBefore (store.rows portfolioId) now')
    (absent : state.transactionsByExternalId.get? t.externalId = none) :
    Foresees portfolioId (state.push t) (store.addTransaction t') := by
  subst own
  have sameId : t'.externalId = t.externalId := by rw [same.eq]
  obtain ⟨recorded, aligned, sorted⟩ := foresees.ledger
  constructor
  · have earlier : RecordedBefore recorded now' := by
      intro a member
      have stored : a ∈ store.ledger t'.portfolioId := sorted ▸ StableSort.mem_sortOn.mpr member
      exact before' a (StableSort.mem_sortOn.mp stored)
    refine ⟨recorded ++ [t'], aligned.snoc same stamped stamped' before earlier, ?_⟩
    calc ledgerSorted (recorded ++ [t'])
        = ledgerSorted (ledgerSorted recorded ++ [t']) := (StableSort.sortOn_append_sorted _ _ _).symm
      _ = ledgerSorted (ledgerSorted (store.rows t'.portfolioId) ++ [t']) := by rw [sorted]; rfl
      _ = ledgerSorted (store.rows t'.portfolioId ++ [t']) := StableSort.sortOn_append_sorted _ _ _
      _ = (store.addTransaction t').ledger t'.portfolioId := congrArg ledgerSorted (rowsOf_append_own _).symm
  · intro externalId
    have related := foresees.externalIds externalId
    rw [PreviewState.push, Dict.get?_set, Store.byExternalId_addTransaction, sameId]
    split
    · next equal =>
      rw [← equal, absent] at related
      rw [← equal]
      generalize store.byExternalId t'.portfolioId t.externalId = stored at related ⊢
      cases related
      exact .some same
    · rw [Option.or_none]
      exact related

/-- The clock of one pass over a document: later than what was recorded before, and strictly
increasing from row to row. -/
structure ClockTicks (ledger : List Transaction) (stamps : Nat → Fresh)
    (rows : List (TransactionImportCandidate × Nat)) : Prop where
  stored : ∀ row ∈ rows, RecordedBefore ledger (stamps row.2).now
  strict : rows.Pairwise fun row later => (stamps row.2).now.instant < (stamps later.2).now.instant

omit [UnicodeDatabase] in
theorem ClockTicks.tail {ledger ledger' : List Transaction} {stamps : Nat → Fresh}
    {row : TransactionImportCandidate × Nat} {rest : List (TransactionImportCandidate × Nat)}
    (ticks : ClockTicks ledger stamps (row :: rest))
    (grown : ∀ t ∈ ledger', t ∈ ledger ∨ t.createdAt = some (stamps row.2).now) : ClockTicks ledger' stamps rest where
  stored := by
    intro later listed t member createdAt recorded
    rcases grown t member with old | new
    · exact ticks.stored later (List.mem_cons_of_mem _ listed) t old createdAt recorded
    · rw [new] at recorded
      cases recorded
      exact List.rel_of_pairwise_cons ticks.strict listed
  strict := ticks.strict.of_cons

section Rows
variable (ctx : Context) (ownerId portfolioId : UUID)

/-- The two loops decide a row alike. -/
theorem Foresees.decision {state : PreviewState} {store : Store F} (foresees : Foresees portfolioId state store)
    (reached : ReachedStore store) (owned : store.owns ownerId portfolioId) (newTransaction : NewTransaction)
    {seen stamp : Fresh} (before : RecordedBefore state.ledger seen.now)
    (before' : RecordedBefore (store.rows portfolioId) stamp.now) :
    SameDecision SameEvent
      (decideRequest ctx portfolioId newTransaction seen state.transactionsByExternalId.get? state.ledger)
      (admission ctx ownerId portfolioId newTransaction stamp store) := by
  obtain ⟨portfolio, passed⟩ := owned_of_owns owned
  obtain ⟨recorded, aligned, sorted⟩ := foresees.ledger
  have stored : ∀ a ∈ recorded, a ∈ store.rows portfolioId := by
    intro a member
    have listed : a ∈ store.ledger portfolioId := sorted ▸ StableSort.mem_sortOn.mpr member
    exact StableSort.mem_sortOn.mp listed
  have utc : ∀ a ∈ recorded, a.occurredAt.isUtc := fun a member => (reached.sound portfolioId).utc a (stored a member)
  have utcSeen : ∀ a ∈ state.ledger, a.occurredAt.isUtc :=
    Checked.forall_of_forall₂ aligned.events.flip utc fun b a same utcB => same.occurredAt_eq ▸ utcB
  unfold admission
  rw [passed, Checked.ok_bind]
  refine decideRequest_same ctx portfolioId newTransaction (fun _ _ same => same) foresees.externalIds ?_
  intro t t' same utcNew valid stamped stamped'
  have valid' : t'.Valid :=
    validateTransaction_eq_ok.mp (same.validateTransaction_eq ▸ validateTransaction_eq_ok.mpr valid)
  have utcNew' : t'.occurredAt.isUtc := same.occurredAt_eq ▸ utcNew
  have longer := aligned.snoc same stamped stamped' before fun a member => before' a (stored a member)
  calc derivePositions ctx (state.ledger ++ [t])
      = derivePositions ctx (recorded ++ [t']) :=
        longer.derivePositions_eq ctx (List.forall_mem_append.mpr ⟨utcSeen, List.forall_mem_singleton.mpr utcNew⟩)
    _ = derivePositions ctx (ledgerSorted recorded ++ [t']) := by
        refine (derivePositions_presorted ctx ?_ ?_).symm
        · exact List.forall_mem_append.mpr ⟨fun a member => (reached.built portfolioId a (stored a member)).2,
            List.forall_mem_singleton.mpr valid'⟩
        · exact List.forall_mem_append.mpr ⟨utc, List.forall_mem_singleton.mpr utcNew'⟩
    _ = derivePositions ctx (store.ledger portfolioId ++ [t']) := by rw [sorted]

/-- One row: what the preview says is what the commit does. -/
theorem Foresees.row {state next : PreviewState} {world : World F} (foresees : Foresees portfolioId state world.store)
    (reached : ReachedStore world.store) (owned : world.store.owns ownerId portfolioId)
    {candidate : TransactionImportCandidate} {seen stamp : Fresh} {row : TransactionImportRowResult}
    (before : RecordedBefore state.ledger seen.now)
    (before' : RecordedBefore (world.store.rows portfolioId) stamp.now)
    (run : previewRow ctx portfolioId state candidate seen = .ok (row, next)) :
    ∃ committed after, (commitRow ctx ownerId portfolioId candidate stamp).run world = (.ok committed, after) ∧
      Predicts row committed ∧ Foresees portfolioId next after.store ∧
      ∀ t ∈ next.ledger, t ∈ state.ledger ∨ t.createdAt = some seen.now := by
  have old : ∀ t ∈ state.ledger, t ∈ state.ledger ∨ t.createdAt = some seen.now := fun t member => .inl member
  cases readable : candidate.readable with
  | none =>
    rw [commitRow_run_unread _ _ _ readable]
    simp only [previewRow, readable] at run
    cases run
    exact ⟨_, _, rfl, predicts_of_candidate candidate .invalid .none .none, foresees, old⟩
  | some newTransaction =>
    rw [commitRow_run _ _ _ readable]
    have foretold := previewRow_eq_ok readable run
    have same := foresees.decision ctx ownerId portfolioId reached owned newTransaction before before'
    cases decided :
        decideRequest ctx portfolioId newTransaction seen state.transactionsByExternalId.get? state.ledger with
    | error raised =>
      rw [decided] at foretold same
      cases foretold with
      | invalid failed alike =>
        generalize admission ctx ownerId portfolioId newTransaction stamp world.store = decision at same ⊢
        cases same
        rw [failed]
        exact ⟨_, _, rfl, predicts_of_candidate candidate .invalid .none (.some alike), foresees, old⟩
    | ok creation =>
      rw [decided] at foretold same
      cases foretold with
      | replay =>
        generalize admission ctx ownerId portfolioId newTransaction stamp world.store = decision at same ⊢
        cases same with
        | replayed event =>
          exact ⟨_, _, rfl, predicts_of_candidate candidate .replay (.some event) .none, foresees, old⟩
      | @ready t =>
        cases admitted : admission ctx ownerId portfolioId newTransaction stamp world.store with
        | error raised =>
          rw [admitted] at same
          cases same
        | ok creation =>
          rw [admitted] at same
          cases same with
          | @created _ t' event =>
            have creates := decideRequest_created decided
            have from_request := BuiltFrom.of_eq_ok creates.built
            have from_request' := BuiltFrom.of_eq_ok (admit_created admitted).built
            refine ⟨_, _, rfl, predicts_of_candidate candidate .ready (.some event) .none, ?_, ?_⟩
            · exact foresees.push event from_request'.portfolioId_eq from_request.createdAt_eq
                from_request'.createdAt_eq before before' creates.absent
            · intro a member
              rcases List.mem_append.mp member with earlier | new
              · exact .inl earlier
              · cases List.mem_singleton.mp new
                exact .inr from_request.createdAt_eq

/-- The loop of the commit reports what the loop of the preview has reported. -/
theorem Foresees.rows {state : PreviewState} {world : World F} (foresees : Foresees portfolioId state world.store)
    (reached : ReachedStore world.store) (owned : world.store.owns ownerId portfolioId) {seen stamps : Nat → Fresh}
    {candidates : List (TransactionImportCandidate × Nat)} {rows : List TransactionImportRowResult}
    (ticks : ClockTicks state.ledger seen candidates)
    (ticks' : ClockTicks (world.store.rows portfolioId) stamps candidates)
    (run : previewRows ctx portfolioId seen state candidates = .ok rows) :
    ∃ committed after, (commitRows ctx ownerId portfolioId stamps candidates).run world = (.ok committed, after) ∧
      List.Forall₂ Predicts rows committed := by
  induction candidates generalizing state world rows with
  | nil =>
    cases run
    exact ⟨[], world, rfl, .nil⟩
  | cons candidate rest ih =>
    obtain ⟨⟨row, next⟩, head, run⟩ := Checked.bind_eq_ok.mp run
    obtain ⟨later, tail, run⟩ := Checked.bind_eq_ok.mp run
    cases Checked.pure_eq_ok.mp run
    obtain ⟨committed, after, first, predicts, still, grown⟩ := foresees.row ctx ownerId portfolioId reached owned
      (ticks.stored _ List.mem_cons_self) (ticks'.stored _ List.mem_cons_self) head
    have advances := (commitRow_advances ctx ownerId portfolioId candidate.1 (stamps candidate.2)).step world
    obtain ⟨added, stored, each⟩ := commitRow_adds ctx ownerId portfolioId candidate.1 (stamps candidate.2) world
    rw [first] at advances stored
    have grown' : ∀ t ∈ after.store.rows portfolioId, t ∈ world.store.rows portfolioId ∨
        t.createdAt = some (stamps candidate.2).now := by
      intro t member
      rw [stored, Store.rows_extend] at member
      rcases List.mem_append.mp member with old | new
      · exact .inl old
      · exact .inr (each t (List.mem_of_mem_filter new)).2.2
    obtain ⟨more, final, others, predicted⟩ := ih still (advances.grows.reached reached) (advances.owns _ _ owned)
      (ticks.tail grown) (ticks'.tail grown') tail
    refine ⟨committed :: more, final, ?_, .cons predicts predicted⟩
    rw [commitRows, Program.collect, Program.bind_ok first, Program.bind_ok others]
    rfl

end Rows

/-- The report on a list of previewed rows. -/
def previewReport (rows : List TransactionImportRowResult) : TransactionImportPreview where
  rows := rows
  totalRows := rows.length
  readyRows := countImportStatus rows .ready
  replayRows := countImportStatus rows .replay
  invalidRows := countImportStatus rows .invalid

/-- A preview that returns has passed the ownership check, read its document and decided every row. -/
theorem preview_eq_ok {ctx : Context} {parser : TransactionCsvParser} {ownerId portfolioId : UUID}
    {csvData : List UInt8} {fresh : Nat → Fresh} {world after : World F} {report : TransactionImportPreview}
    (run : (TransactionImportService.preview ctx parser ownerId portfolioId csvData fresh).run world =
      (.ok report, after)) :
    world.store.owns ownerId portfolioId ∧ ∃ candidates rows, parser csvData = .ok candidates ∧
      previewRows ctx portfolioId fresh
        { ledger := world.store.ledger portfolioId
          transactionsByExternalId := (world.store.ledger portfolioId).foldl
            (fun byId transaction => byId.set transaction.externalId transaction) .empty }
        candidates.zipIdx = .ok rows ∧
      report = previewReport rows ∧ after = world.record (.parsed csvData) := by
  obtain ⟨ledger, loaded, load, run⟩ := Program.bind_eq_ok.mp run
  obtain ⟨found, read, get, load⟩ := Program.bind_eq_ok.mp load
  cases get.symm.trans (PortfolioRepository.get_run world portfolioId)
  obtain ⟨portfolio, checked, owned, load⟩ := Program.bind_eq_ok.mp load
  rw [Program.lift_run, Prod.mk.injEq] at owned
  obtain ⟨passed, rfl⟩ := owned
  cases load.symm.trans (TransactionRepository.listForPortfolio_run world portfolioId)
  obtain ⟨candidates, recorded, parsed, run⟩ := Program.bind_eq_ok.mp run
  rw [callOutside_run, Prod.mk.injEq] at parsed
  obtain ⟨accepted, rfl⟩ := parsed
  obtain ⟨rows, final, decided, run⟩ := Program.bind_eq_ok.mp run
  rw [Program.lift_run, Prod.mk.injEq] at decided
  obtain ⟨decided, rfl⟩ := decided
  rw [Program.pure_run, Prod.mk.injEq] at run
  obtain ⟨result, rfl⟩ := run
  exact ⟨owns_of_requireOwned passed, candidates, rows, accepted, decided, (Except.ok.inj result).symm, rfl⟩

omit [UnicodeDatabase] in
theorem countImportStatus_predicted {rows committed : List TransactionImportRowResult}
    (predicted : List.Forall₂ Predicts rows committed) {status status' : TransactionImportRowStatus}
    (outcome : Matches status status') : countImportStatus committed status' = countImportStatus rows status := by
  unfold countImportStatus
  induction predicted with
  | nil => rfl
  | cons predicts _ ih =>
    have same : ∀ {left right}, Matches left right → (right = status' ↔ left = status) := by
      intro left right known
      cases outcome <;> cases known <;> decide
    rw [List.countP_cons, List.countP_cons, ih]
    simp only [same predicts.status]

variable [FloatArithmetic F]

/-- If nothing else is written in between and the clock is strictly increasing, a preview leaves the
store alone, and the commit of the same document reports the same rows with the predicted outcomes. -/
theorem preview_predicts_commit (ctx : Context) (wiring : Wiring) (earlier : List (Call F))
    {ownerId portfolioId : UUID} {csvData : List UInt8} {candidates : List TransactionImportCandidate}
    {seen stamps : Nat → Fresh} {report : TransactionImportPreview} {previewed : World F}
    (parsed : wiring.parser csvData = .ok candidates)
    (ticks : ClockTicks ((runCalls ctx wiring {} earlier).store.rows portfolioId) seen candidates.zipIdx)
    (ticks' : ClockTicks ((runCalls ctx wiring {} earlier).store.rows portfolioId) stamps candidates.zipIdx)
    (previews : (TransactionImportService.preview ctx wiring.parser ownerId portfolioId csvData seen).run
      (runCalls ctx wiring {} earlier) = (.ok report, previewed)) :
    previewed.store = (runCalls ctx wiring {} earlier).store ∧
    ∃ committed after, (TransactionImportService.commit ctx wiring.parser ownerId portfolioId csvData stamps).run
        previewed = (.ok committed, after) ∧
      List.Forall₂ Predicts report.rows committed.rows ∧
      committed.totalRows = report.totalRows ∧ committed.createdRows = report.readyRows ∧
      committed.replayedRows = report.replayRows ∧ committed.failedRows = report.invalidRows := by
  have reached := (runCalls_grows ctx wiring {} earlier).reached reachedStore_empty
  generalize runCalls ctx wiring {} earlier = world at ticks ticks' previews reached ⊢
  obtain ⟨owned, read, rows, accepted, decided, rfl, rfl⟩ := preview_eq_ok previews
  cases Except.ok.inj (parsed.symm.trans accepted)
  refine ⟨World.record_store _ _, ?_⟩
  have seenTicks : ClockTicks (world.store.ledger portfolioId) seen candidates.zipIdx :=
    ⟨fun row listed t member => ticks.stored row listed t (StableSort.mem_sortOn.mp member), ticks.strict⟩
  have start : Foresees portfolioId _ ((world.record (.parsed csvData)).record (.parsed csvData)).store :=
    .start reached portfolioId
  obtain ⟨committed, after, run, predicted⟩ := start.rows ctx ownerId portfolioId reached owned seenTicks ticks' decided
  have again : (world.record (.parsed csvData)).store.owns ownerId portfolioId := owned
  refine ⟨commitReport committed, after, ?_, predicted, predicted.length_eq.symm,
    countImportStatus_predicted predicted .ready, countImportStatus_predicted predicted .replay,
    countImportStatus_predicted predicted .invalid⟩
  rw [commit_run ctx stamps again parsed, Program.map_run, run]
  rfl

end Prediction

section Deposits

attribute [local instance] Text.asciiDatabase FloatArithmetic.rational

/-- One deposit, the same again in another spelling, and another one under its external id. -/
def repeatedDocument : String :=
  depositDocument ++ "first,DEPOSIT,2024-01-02T00:00:00Z,10.0\n" ++ "first,DEPOSIT,2024-01-02T00:00:00Z,20\n"

def repeatedCandidate (rowNumber : Nat) (cashAmount : Decimal) : TransactionImportCandidate :=
  { depositCandidate with
    rowNumber := rowNumber
    newTransaction := depositCandidate.newTransaction.map fun deposit =>
      { deposit with cashAmount := some cashAmount } }

theorem repeated_deposits_predicted : ∃ report previewed committed after,
    (TransactionImportService.preview .exact depositWiring.parser ⟨1⟩ ⟨2⟩ (asciiBytes repeatedDocument)
      countingFresh).run (runCalls .exact depositWiring {} depositCalls) = (.ok report, previewed) ∧
    (TransactionImportService.commit .exact depositWiring.parser ⟨1⟩ ⟨2⟩ (asciiBytes repeatedDocument)
      countingFresh).run previewed = (.ok committed, after) ∧
    List.Forall₂ Predicts report.rows committed.rows := by
  have accepted : depositWiring.parser (asciiBytes repeatedDocument) = .ok [repeatedCandidate 2 (.finite false 10 0),
      repeatedCandidate 3 (.finite false 100 (-1)), repeatedCandidate 4 (.finite false 20 0)] := by decide +kernel
  have empty : (runCalls .exact depositWiring {} depositCalls).store.rows ⟨2⟩ = [] := by decide +kernel
  have ticks : ClockTicks ((runCalls .exact depositWiring {} depositCalls).store.rows ⟨2⟩) countingFresh
      [repeatedCandidate 2 (.finite false 10 0), repeatedCandidate 3 (.finite false 100 (-1)),
        repeatedCandidate 4 (.finite false 20 0)].zipIdx := by
    rw [empty]
    refine ⟨fun row listed t stored => ?_, by decide +kernel⟩
    cases stored
  have returns : ((TransactionImportService.preview .exact depositWiring.parser ⟨1⟩ ⟨2⟩ (asciiBytes repeatedDocument)
      countingFresh).run (runCalls .exact depositWiring {} depositCalls)).1.isOk := by decide +kernel
  match previews : (TransactionImportService.preview .exact depositWiring.parser ⟨1⟩ ⟨2⟩ (asciiBytes repeatedDocument)
      countingFresh).run (runCalls .exact depositWiring {} depositCalls) with
  | (.error raised, previewed) =>
    rw [previews] at returns
    cases returns
  | (.ok report, previewed) =>
    obtain ⟨_, committed, after, commits, predicted, _⟩ :=
      preview_predicts_commit .exact depositWiring depositCalls accepted ticks ticks previews
    exact ⟨report, previewed, committed, after, rfl, commits, predicted⟩

end Deposits

end LedgerLens

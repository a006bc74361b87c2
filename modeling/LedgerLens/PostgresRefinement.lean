import LedgerLens.Admission
import LedgerLens.ImportReports
import LedgerLens.ValuationFromScratch
import LedgerLens.BackedStore
import LedgerLens.Library.Simulation

namespace LedgerLens
open Decimal (Context)
open Program (Simulates)
variable {F : Type}

theorem pySlice_ofNat {α : Type} (xs : List α) (start count : Nat) :
    pySlice xs start (start + count) = (xs.drop start).take count := by
  have lower : ¬ (start : Int) < 0 := by omega
  have upper : ¬ (start : Int) + count < 0 := by omega
  have last : ((start : Int) + count).toNat = start + count := by omega
  simp only [pySlice, if_neg lower, if_neg upper, last, Int.toNat_natCast, List.drop_take, Nat.add_sub_cancel_left]

/-- Between two statements that write nothing, the session sees what is committed, and that is what the
store holds. Some ids are still unused, and some times still ahead. -/
structure Settled (server : Server) (users unused : List UUID) (ahead : List DateTime) (world : World F)
    (session : PostgresWorld F) : Prop where
  backs : Backs server session.drawn world.store session.committed
  working : session.working = session.committed
  users : session.committed.users = users
  calls : session.calls = world.calls
  unused : ∀ id ∈ unused, id ∉ world.store.ids
  ahead : ∀ record ∈ session.committed.portfolios, ∀ time ∈ ahead, record.createdAt.instant < time.instant

namespace Settled
variable {server : Server} {users unused : List UUID} {ahead : List DateTime} {world : World F}
  {session : PostgresWorld F}

theorem mono (settled : Settled server users unused ahead world session) {fewer : List UUID} (left : fewer ⊆ unused) :
    Settled server users fewer ahead world session :=
  { settled with unused := fun id listed => settled.unused id (left listed) }

theorem pass {now : DateTime} (settled : Settled server users unused (now :: ahead) world session) :
    Settled server users unused ahead world session :=
  { settled with ahead := fun record listed time later => settled.ahead record listed time (.tail _ later) }

/-- Leaving a session keeps what was committed in it. -/
theorem leave (settled : Settled server users unused ahead world session) :
    Settled server users unused ahead world { session with working := session.committed } :=
  { settled with working := rfl }

theorem record (settled : Settled server users unused ahead world session) (calls : List (OutsideCall F)) :
    Settled server users unused ahead { world with calls := world.calls ++ calls }
      { session with calls := session.calls ++ calls } :=
  { settled with calls := congrArg (fun made => made ++ calls) settled.calls }

theorem within {snapshots : AnalysisSnapshotPort F (PostgresWorld F) (Error ⊕ DatabaseError)} {now : DateTime}
    {α : Type} (settled : Settled server users unused ahead world session) {left : List UUID} {x : Service F α}
    {y : AsyncSession.Statement F α}
    (body : Simulates Sum.inl (Settled server users left ahead) x y world session) :
    Simulates Sum.inl (Settled server users left ahead) ((InMemoryUnitOfWork F).within x)
      ((SqlAlchemyUnitOfWork server now snapshots).within y) world session := by
  have entered : { session with working := session.committed } = session :=
    congrArg (fun working => { session with working := working }) settled.working.symm
  have body_run : y.run { session with working := session.committed } = ((y.run session).1, (y.run session).2) := by
    rw [entered]
  have run := AsyncSession.within_run body_run
  refine ⟨(congrArg Prod.fst run).trans body.answer, ?_⟩
  change Settled server users left ahead _ ((AsyncSession.within y).run session).2
  rw [run]
  exact body.state.leave

section Statements
variable (settled : Settled server users unused ahead world session)
include settled

theorem getPortfolio_run (portfolioId : UUID) :
    (PostgresPortfolioRepository.get portfolioId).run session =
      (.ok (world.store.portfolios.get? portfolioId), session) := by
  rw [← settled.backs.getPortfolio portfolioId, ← settled.working]
  rfl

theorem countForOwner_run (ownerId : UUID) :
    (PostgresPortfolioRepository.countForOwner ownerId).run session =
      (.ok ((world.store.portfolios.entries.map Prod.snd).filter fun portfolio => portfolio.ownerId = ownerId).length,
        session) := by
  rw [← settled.backs.countForOwner ownerId, ← settled.working]
  rfl

theorem listForPortfolio_run (portfolioId : UUID) :
    (PostgresTransactionRepository.listForPortfolioInSession portfolioId).run session =
      (.ok (world.store.ledger portfolioId), session) := by
  change ((PostgresTransactionRepository.listForPortfolio session.working.tables portfolioId).mapError Sum.inr,
    session) = _
  rw [settled.working, settled.backs.listForPortfolio portfolioId]
  rfl

theorem getByExternalId_run (portfolioId : UUID) {externalId : String} (text : '\x00' ∉ externalId.toList) :
    (PostgresTransactionRepository.getByExternalIdInSession portfolioId externalId).run session =
      (.ok (world.store.byExternalId portfolioId externalId), session) := by
  change ((PostgresTransactionRepository.getByExternalId session.working.tables portfolioId externalId).mapError
    Sum.inr, session) = _
  rw [settled.working, settled.backs.getByExternalId portfolioId text]
  rfl

/-- A page with a `LIMIT` and an `OFFSET` that the server takes is the slice of the list. -/
theorem listForOwner_run (ownerId : UUID) {limit offset : Int} (limitOk : 0 ≤ limit ∧ limit < 2 ^ 63)
    (offsetOk : 0 ≤ offset ∧ offset < 2 ^ 63) :
    (PostgresPortfolioRepository.listForOwner ownerId limit offset).run session =
      (.ok (pySlice ((world.store.portfolios.entries.map Prod.snd).reverse.filter fun portfolio =>
        portfolio.ownerId = ownerId) offset (offset + limit)), session) := by
  have page := settled.backs.sortedPortfolios ownerId
  obtain ⟨count, rfl⟩ := Int.eq_ofNat_of_zero_le limitOk.1
  obtain ⟨start, rfl⟩ := Int.eq_ofNat_of_zero_le offsetOk.1
  rw [← page, ← settled.working]
  rw [pySlice_ofNat, ← List.map_drop, ← List.map_take]
  simp only [PostgresPortfolioRepository.listForOwner, AsyncSession.query, rowCount, if_pos limitOk, if_pos offsetOk,
    Checked.ok_bind]
  rfl

end Statements
end Settled

/-- The ids that the rows of an import are written under. -/
def importIds (parser : TransactionCsvParser) (csvData : List UInt8) (fresh : Nat → Fresh) : List UUID :=
  match parser csvData with
  | .ok candidates => candidates.zipIdx.map fun row => (fresh row.2).id
  | .error _ => []

section Services
variable {server : Server} {snapshots : AnalysisSnapshotPort F (PostgresWorld F) (Error ⊕ DatabaseError)}
  {users unused : List UUID} {ahead : List DateTime} {world : World F} {session : PostgresWorld F} {α β : Type}

theorem InMemoryUnitOfWork.lift_run (result : Except Error α) (world : World F) :
    ((InMemoryUnitOfWork F).lift result).run world = (result, world) := by
  rw [lift_eq, Program.lift_run]

namespace Settled
variable (settled : Settled server users unused ahead world session)
include settled

theorem lift (result : Except Error α) :
    Simulates Sum.inl (Settled server users unused ahead) ((InMemoryUnitOfWork F).lift result)
      ((SqlAlchemyUnitOfWork server now snapshots).lift result) world session :=
  .of_run (InMemoryUnitOfWork.lift_run result world) rfl settled

/-- Past a check or a computation of the application. -/
theorem decided (result : Except Error α) {f : α → Service F β} {g : α → AsyncSession.Statement F β}
    (rest : ∀ a, result = .ok a → Simulates Sum.inl (Settled server users unused ahead) (f a) (g a) world session) :
    Simulates Sum.inl (Settled server users unused ahead) ((InMemoryUnitOfWork F).lift result >>= f)
      ((SqlAlchemyUnitOfWork server now snapshots).lift result >>= g) world session :=
  .decided (InMemoryUnitOfWork.lift_run result world) rfl settled rest

theorem callOutside (call : OutsideCall F) (answer : Except Error α) :
    Simulates Sum.inl (Settled server users unused ahead) ((InMemoryUnitOfWork F).callOutside call answer)
      ((SqlAlchemyUnitOfWork server now snapshots).callOutside call answer) world session := by
  have left : ((InMemoryUnitOfWork F).callOutside call answer).run world = (answer, world.record call) := by
    rw [InMemoryUnitOfWork.callOutside_eq, callOutside_run]
  exact .of_run left rfl (settled.record [call])

theorem fetchAll (marketData : MarketData) (symbols : List String) (startDate endDate : Date) :
    Simulates Sum.inl (Settled server users unused ahead)
      ((InMemoryUnitOfWork F).fetchAll marketData symbols startDate endDate)
      ((SqlAlchemyUnitOfWork server now snapshots).fetchAll marketData symbols startDate endDate) world session := by
  refine .andThen (x := (InMemoryUnitOfWork F).record _) ?_ fun _ _ _ _ later => later.lift _
  exact .of_run rfl rfl (settled.record _)

theorem commitOutcome (candidate : TransactionImportCandidate) (outcome : Except Error TransactionCreation) :
    Simulates Sum.inl (Settled server users unused ahead)
      (UnitOfWork.TransactionImportService.commitOutcome (InMemoryUnitOfWork F) candidate outcome)
      (UnitOfWork.TransactionImportService.commitOutcome (SqlAlchemyUnitOfWork server now snapshots) candidate
        (outcome.mapError Sum.inl)) world session := by
  cases outcome with
  | ok creation => exact settled.lift _
  | error raised => exact settled.lift _

theorem getPortfolio (ownerId portfolioId : UUID) :
    Simulates Sum.inl (Settled server users unused ahead)
      (UnitOfWork.PortfolioService.get (InMemoryUnitOfWork F) ownerId portfolioId)
      (UnitOfWork.PortfolioService.get (SqlAlchemyUnitOfWork server now snapshots) ownerId portfolioId) world
      session := by
  refine settled.within (.after (PortfolioRepository.get_run world portfolioId)
    (settled.getPortfolio_run portfolioId) ?_)
  exact settled.lift _

theorem ownedLedger (ownerId portfolioId : UUID) :
    Simulates Sum.inl (Settled server users unused ahead)
      (UnitOfWork.ownedLedger (InMemoryUnitOfWork F) ownerId portfolioId)
      (UnitOfWork.ownedLedger (SqlAlchemyUnitOfWork server now snapshots) ownerId portfolioId) world session := by
  refine settled.within (.after (PortfolioRepository.get_run world portfolioId)
    (settled.getPortfolio_run portfolioId) (settled.decided _ fun _ _ => ?_))
  exact .of_run (TransactionRepository.listForPortfolio_run world portfolioId)
    (settled.listForPortfolio_run portfolioId) settled

theorem assertOwned (ownerId portfolioId : UUID) :
    Simulates Sum.inl (Settled server users unused ahead)
      (UnitOfWork.TransactionImportService.assertOwned (InMemoryUnitOfWork F) ownerId portfolioId)
      (UnitOfWork.TransactionImportService.assertOwned (SqlAlchemyUnitOfWork server now snapshots) ownerId
        portfolioId) world session := by
  refine settled.within (.after (PortfolioRepository.get_run world portfolioId)
    (settled.getPortfolio_run portfolioId) (settled.decided _ fun _ _ => ?_))
  exact .pure () settled

theorem listPortfolios (ownerId : UUID) {limit offset : Int} (limitOk : 0 ≤ limit ∧ limit < 2 ^ 63)
    (offsetOk : 0 ≤ offset ∧ offset < 2 ^ 63) :
    Simulates Sum.inl (Settled server users unused ahead)
      (UnitOfWork.PortfolioService.list (InMemoryUnitOfWork F) ownerId limit offset)
      (UnitOfWork.PortfolioService.list (SqlAlchemyUnitOfWork server now snapshots) ownerId limit offset) world
      session := by
  refine .andThen (settled.within ?_) fun _ _ _ _ later => .pure _ later
  refine .after rfl (settled.listForOwner_run ownerId limitOk offsetOk) ?_
  exact .after rfl (settled.countForOwner_run ownerId) (.pure _ settled)

theorem preview [UnicodeDatabase] (ctx : Context) (parser : TransactionCsvParser) (ownerId portfolioId : UUID)
    (csvData : List UInt8) (fresh : Nat → Fresh) :
    Simulates Sum.inl (Settled server users unused ahead)
      (UnitOfWork.TransactionImportService.preview (InMemoryUnitOfWork F) ctx parser ownerId portfolioId csvData fresh)
      (UnitOfWork.TransactionImportService.preview (SqlAlchemyUnitOfWork server now snapshots) ctx parser ownerId
        portfolioId csvData fresh) world session :=
  (settled.ownedLedger ownerId portfolioId).andThen fun _ _ _ _ later =>
    (later.callOutside _ _).andThen fun _ _ _ _ later => later.decided _ fun _ _ => .pure _ later

theorem analyze [UnicodeDatabase] [FloatArithmetic F] (ctx : Context) (methodology : AnalyticsMethodology)
    (ownerId portfolioId : UUID) (startDate endDate : Date) (marketData : MarketData) :
    Simulates Sum.inl (Settled server users unused ahead)
      (UnitOfWork.PortfolioAnalyticsService.analyze (InMemoryUnitOfWork F) ctx methodology ownerId portfolioId startDate
        endDate marketData)
      (UnitOfWork.PortfolioAnalyticsService.analyze (SqlAlchemyUnitOfWork server now snapshots) ctx methodology ownerId
        portfolioId startDate endDate marketData) world session := by
  refine (settled.ownedLedger ownerId portfolioId).andThen fun _ _ _ _ later => ?_
  by_cases backwards : endDate < startDate
  · simp only [if_pos backwards]
    exact .raise _ later
  · simp only [if_neg backwards]
    refine later.decided _ fun symbols _ => ?_
    by_cases symbolless : symbols = []
    · simp only [if_pos symbolless]
      exact .raise _ later
    · simp only [if_neg symbolless]
      exact (later.fetchAll marketData symbols startDate endDate).andThen fun _ _ _ _ later =>
        later.decided _ fun _ _ => later.lift _

variable (documented : server.Documented)
include documented

/-- A transaction under an unused id goes into both backends. -/
theorem addTransaction {t : Transaction} (storable : t.Storable) (text : t.PlainText) (utc : t.inUtc = t)
    (absent : world.store.byExternalId t.portfolioId t.externalId = none) {portfolio : Portfolio}
    (found : world.store.portfolios.get? t.portfolioId = some portfolio)
    {rest : List UUID} (ids : unused = t.id :: rest) (distinct : unused.Nodup) (answer : α) :
    Simulates Sum.inl (Settled server users rest ahead)
      (do
        (InMemoryUnitOfWork F).transactions.add t
        (InMemoryUnitOfWork F).commit
        return answer)
      (do
        (SqlAlchemyUnitOfWork server now snapshots).transactions.add t
        (SqlAlchemyUnitOfWork server now snapshots).commit
        return answer) world session := by
  subst ids
  obtain ⟨other, _⟩ := List.nodup_cons.mp distinct
  have fresh : t.id ∉ world.store.transactions.map Transaction.id := fun used =>
    settled.unused t.id List.mem_cons_self (List.mem_append_right _ used)
  obtain ⟨tables, run, backs⟩ := settled.backs.addTransaction documented storable text utc fresh absent found now
  let next : Database := session.committed.withTables tables
  have added : (PostgresTransactionRepository.addInSession server now t).run session =
      (.ok (), { session with working := next, drawn := session.drawn + t.symbol.toList.length }) := by
    refine AsyncSession.execute_run ?_
    rw [settled.working, run]
    rfl
  refine .of_run rfl (Program.bind_ok added _) ?_
  constructor
  · exact backs
  · rfl
  · exact settled.users
  · exact settled.calls
  · intro id listed used
    have used : id ∈ world.store.portfolios.keys ++ (world.store.transactions ++ [t]).map Transaction.id := used
    rw [List.map_append, List.map_singleton, ← List.append_assoc] at used
    rcases List.mem_append.mp used with old | new
    · exact settled.unused id (List.mem_cons_of_mem _ listed) old
    · cases List.mem_singleton.mp new
      exact other listed
  · exact settled.ahead

omit settled in
/-- A portfolio under an unused id goes into both backends. -/
theorem addPortfolio (settled : Settled server users unused (now :: ahead) world session)
    (later : ∀ time ∈ ahead, now.instant < time.instant) {portfolio : Portfolio} (bare : portfolio.transactions = [])
    (accepts : PortfolioInput.Accepts portfolio.name portfolio.baseCurrency) (registered : portfolio.ownerId ∈ users)
    {rest : List UUID} (ids : unused = portfolio.id :: rest) (distinct : unused.Nodup) :
    Simulates Sum.inl (Settled server users rest ahead)
      ((InMemoryUnitOfWork F).within do
        (InMemoryUnitOfWork F).portfolios.add portfolio
        (InMemoryUnitOfWork F).commit)
      ((SqlAlchemyUnitOfWork server now snapshots).within do
        (SqlAlchemyUnitOfWork server now snapshots).portfolios.add portfolio
        (SqlAlchemyUnitOfWork server now snapshots).commit) world session := by
  subst ids
  obtain ⟨other, _⟩ := List.nodup_cons.mp distinct
  have fresh : portfolio.id ∉ world.store.portfolios.keys := fun used =>
    settled.unused portfolio.id List.mem_cons_self (List.mem_append_left _ used)
  have absent : world.store.portfolios.get? portfolio.id = none := Dict.get?_eq_none.mpr fresh
  let record : PortfolioRecord :=
    ⟨portfolio.id, portfolio.ownerId, portfolio.name, portfolio.baseCurrency, now⟩
  let next : Database := { session.committed with portfolios := session.committed.portfolios ++ [record] }
  have inserted : session.committed.insertPortfolio server record = .ok next :=
    settled.backs.insertPortfolio documented accepts fresh (settled.users ▸ registered)
  have same : PostgresPortfolioRepository.toDomain record = portfolio := by
    cases portfolio
    cases bare
    rfl
  have left : ((InMemoryUnitOfWork F).within do
      (InMemoryUnitOfWork F).portfolios.add portfolio
      (InMemoryUnitOfWork F).commit).run world =
        (.ok (), world.update fun store => store.addPortfolio portfolio) := by
    change (PortfolioRepository.add portfolio >>= fun _ => pure ()).run world = _
    rw [PortfolioRepository.add, Program.bind_assoc, Program.bind_ok (Program.read_run _ world), absent]
    rfl
  have right : ((SqlAlchemyUnitOfWork server now snapshots).within do
      (SqlAlchemyUnitOfWork server now snapshots).portfolios.add portfolio
      (SqlAlchemyUnitOfWork server now snapshots).commit).run session =
        (.ok (), { session with committed := next, working := next }) := by
    have added : (PostgresPortfolioRepository.add server now portfolio).run
        { session with working := session.committed } = (.ok (), { session with working := next }) :=
      AsyncSession.execute_run inserted
    exact AsyncSession.within_run (Program.bind_ok added fun _ => AsyncSession.commit)
  refine .of_run left right ?_
  constructor
  · exact settled.backs.addPortfolio bare fresh same fun earlier listed => settled.ahead earlier listed now (.head _)
  · rfl
  · exact settled.users
  · exact settled.calls
  · intro id listed used
    have rows : (world.store.addPortfolio portfolio).transactions = world.store.transactions := by
      simp [Store.addPortfolio, bare]
    rcases List.mem_append.mp used with key | row
    · rcases Dict.mem_keys_set.mp key with rfl | old
      · exact other listed
      · exact settled.unused id (List.mem_cons_of_mem _ listed) (List.mem_append_left _ old)
    · exact settled.unused id (List.mem_cons_of_mem _ listed) (List.mem_append_right _ (rows ▸ row))
  · refine List.forall_mem_append.mpr ⟨fun earlier listed time ahead => ?_, fun last single time ahead => ?_⟩
    · exact settled.ahead earlier listed time (.tail _ ahead)
    · cases List.mem_singleton.mp single
      exact later time ahead

variable [UnicodeDatabase]

omit settled in
theorem createPortfolio (settled : Settled server users unused (now :: ahead) world session)
    (later : ∀ time ∈ ahead, now.instant < time.instant) {ownerId : UUID} {name baseCurrency : String} {id : UUID}
    (accepts : PortfolioInput.Accepts name baseCurrency) (registered : ownerId ∈ users) {rest : List UUID}
    (ids : unused = id :: rest) (distinct : unused.Nodup) :
    Simulates Sum.inl (Settled server users rest ahead)
      (UnitOfWork.PortfolioService.create (InMemoryUnitOfWork F) ownerId name baseCurrency id)
      (UnitOfWork.PortfolioService.create (SqlAlchemyUnitOfWork server now snapshots) ownerId name baseCurrency id)
      world session := by
  unfold UnitOfWork.PortfolioService.create
  rw [accepts.baseCurrency.normalize]
  exact (addPortfolio documented settled later rfl accepts registered ids distinct).andThen fun _ _ _ _ done =>
    .pure _ done

theorem createTransaction (ctx : Context) (ownerId portfolioId : UUID) {newTransaction : NewTransaction}
    {fresh : Fresh} (persistable : Persistable newTransaction) (utc : fresh.now.isUtc) {rest : List UUID}
    (ids : unused = fresh.id :: rest) (distinct : unused.Nodup) :
    Simulates Sum.inl (Settled server users rest ahead)
      (UnitOfWork.TransactionService.create (InMemoryUnitOfWork F) ctx ownerId portfolioId newTransaction fresh)
      (UnitOfWork.TransactionService.create (SqlAlchemyUnitOfWork server now snapshots) ctx ownerId portfolioId
        newTransaction fresh) world session := by
  have answered : Settled server users rest ahead world session :=
    settled.mono (ids ▸ List.subset_cons_self _ _)
  refine settled.within (.after (PortfolioRepository.getForUpdate_run world portfolioId)
    (settled.getPortfolio_run portfolioId) (answered.decided _ fun portfolio owned => answered.decided _ fun t built =>
      answered.decided _ fun _ _ => ?_))
  have from_request := BuiltFrom.of_eq_ok built
  have own := from_request.portfolioId_eq
  have storable : t.Storable := persistable.accepts.storable persistable.convertible persistable.symbol built
  have text : t.PlainText := from_request.plainText_iff.mpr persistable.text
  have recorded : t.inUtc = t := by
    rw [Transaction.inUtc, from_request.createdAt_eq, Option.bind_some, DateTime.astimezoneUtc_of_isUtc utc,
      ← from_request.createdAt_eq]
  refine .after (TransactionRepository.getByExternalId_run world portfolioId _)
    (settled.getByExternalId_run portfolioId text.externalId) ?_
  cases existing : world.store.byExternalId portfolioId t.externalId with
  | some stored =>
    by_cases same : sameTransactionPayload stored t
    · simp only [if_pos same]
      exact .pure _ answered
    · simp only [if_neg same]
      exact .raise _ answered
  | none =>
    refine .after (TransactionRepository.listForPortfolio_run world portfolioId)
      (settled.listForPortfolio_run portfolioId) (answered.decided _ fun _ _ => ?_)
    exact settled.addTransaction documented storable text recorded (own ▸ existing)
      (own ▸ (requireOwned_eq_ok.mp owned).1) (from_request.id_eq ▸ ids) distinct _

theorem commitRow (ctx : Context) (ownerId portfolioId : UUID) (candidate : TransactionImportCandidate) {fresh : Fresh}
    (persistable : ∀ newTransaction ∈ candidate.readable, Persistable newTransaction) (utc : fresh.now.isUtc)
    {rest : List UUID} (ids : unused = fresh.id :: rest) (distinct : unused.Nodup) :
    Simulates Sum.inl (Settled server users rest ahead)
      (UnitOfWork.TransactionImportService.commitRow (InMemoryUnitOfWork F) ctx ownerId portfolioId candidate fresh)
      (UnitOfWork.TransactionImportService.commitRow (SqlAlchemyUnitOfWork server now snapshots) ctx ownerId portfolioId
        candidate fresh) world session := by
  unfold UnitOfWork.TransactionImportService.commitRow
  cases readable : candidate.readable with
  | none => exact .pure _ (settled.mono (ids ▸ List.subset_cons_self _ _))
  | some newTransaction =>
    exact .attempt_bind (settled.createTransaction documented ctx ownerId portfolioId
      (persistable newTransaction readable) utc ids distinct) fun outcome _ _ _ later =>
        later.commitOutcome candidate outcome

theorem commitRows (ctx : Context) (ownerId portfolioId : UUID) {fresh : Nat → Fresh} (utc : ∀ i, (fresh i).now.isUtc)
    {rows : List (TransactionImportCandidate × Nat)}
    (persistable : ∀ row ∈ rows, ∀ newTransaction ∈ row.1.readable, Persistable newTransaction) {rest : List UUID}
    (ids : unused = rows.map (fun row => (fresh row.2).id) ++ rest) (distinct : unused.Nodup) :
    Simulates Sum.inl (Settled server users rest ahead)
      (Program.collect (fun row : TransactionImportCandidate × Nat =>
        UnitOfWork.TransactionImportService.commitRow (InMemoryUnitOfWork F) ctx ownerId portfolioId row.1
          (fresh row.2)) rows)
      (Program.collect (fun row : TransactionImportCandidate × Nat =>
        UnitOfWork.TransactionImportService.commitRow (SqlAlchemyUnitOfWork server now snapshots) ctx ownerId
          portfolioId row.1 (fresh row.2)) rows) world session := by
  subst ids
  -- What the rows still to come rely on: their ids are unused and differ, and the columns hold them.
  let Pending := fun (rows : List (TransactionImportCandidate × Nat)) (world : World F) (session : PostgresWorld F) =>
    Settled server users (rows.map (fun row => (fresh row.2).id) ++ rest) ahead world session ∧
      (rows.map (fun row => (fresh row.2).id) ++ rest).Nodup ∧
      ∀ row ∈ rows, ∀ newTransaction ∈ row.1.readable, Persistable newTransaction
  refine Simulates.mono (Q := Pending []) (.collect Pending (fun row rows _ _ pending => ?_)
    (fun row rows _ _ pending => ?_) ⟨settled, distinct, persistable⟩) fun _ _ pending => pending.1
  · obtain ⟨settled, distinct, persistable⟩ := pending
    exact ⟨settled.mono (List.subset_cons_self _ _), (List.nodup_cons.mp distinct).2,
      (List.forall_mem_cons.mp persistable).2⟩
  · obtain ⟨settled, distinct, persistable⟩ := pending
    obtain ⟨head, tail⟩ := List.forall_mem_cons.mp persistable
    exact (settled.commitRow documented ctx ownerId portfolioId row.1 head (utc row.2) rfl distinct).mono
      fun _ _ later => ⟨later, (List.nodup_cons.mp distinct).2, tail⟩

theorem commit (ctx : Context) (parser : TransactionCsvParser) (ownerId portfolioId : UUID) (csvData : List UInt8)
    {fresh : Nat → Fresh} (utc : ∀ i, (fresh i).now.isUtc)
    (persistable : ∀ candidates, parser csvData = .ok candidates → ∀ candidate ∈ candidates,
      ∀ newTransaction ∈ candidate.readable, Persistable newTransaction) {rest : List UUID}
    (ids : unused = importIds parser csvData fresh ++ rest) (distinct : unused.Nodup) :
    Simulates Sum.inl (Settled server users rest ahead)
      (UnitOfWork.TransactionImportService.commit (InMemoryUnitOfWork F) ctx parser ownerId portfolioId csvData fresh)
      (UnitOfWork.TransactionImportService.commit (SqlAlchemyUnitOfWork server now snapshots) ctx parser ownerId
        portfolioId csvData fresh) world session := by
  have fewer : rest ⊆ unused := ids ▸ List.subset_append_right _ _
  refine .bind (settled.assertOwned ownerId portfolioId) (fun _ _ _ _ later => later.mono fewer)
    fun _ _ _ _ later => .bind (later.callOutside _ _) (fun _ _ _ _ later => later.mono fewer)
      fun candidates _ _ answered later => ?_
  have parsed : parser csvData = .ok candidates := by
    rw [InMemoryUnitOfWork.callOutside_eq, callOutside_run] at answered
    exact congrArg Prod.fst answered
  rw [importIds, parsed] at ids
  have read : ∀ row ∈ candidates.zipIdx, ∀ newTransaction ∈ row.1.readable, Persistable newTransaction :=
    fun row listed => persistable candidates parsed row.1 (List.fst_mem_of_mem_zipIdx listed)
  exact (later.commitRows documented ctx ownerId portfolioId utc read ids distinct).andThen fun _ _ _ _ done =>
    .pure _ done

end Settled
end Services

section Runs

/-- The ids that a request writes under. -/
def Request.ids (wiring : Wiring) : Request F → List UUID
  | .createPortfolio _ _ id => [id]
  | .createTransaction _ _ fresh => [fresh.id]
  | .commitImport _ csvData fresh => importIds wiring.parser csvData fresh
  | _ => []

/-- What the schemas, the limits of the columns and the clock in UTC ask of a request. The requests about
snapshots are left out. -/
def Request.Admitted [UnicodeDatabase] (wiring : Wiring) : Request F → Prop
  | .createPortfolio name baseCurrency _ => PortfolioInput.Accepts name baseCurrency
  | .listPortfolios limit offset => (0 ≤ limit ∧ limit < 2 ^ 63) ∧ 0 ≤ offset ∧ offset < 2 ^ 63
  | .createTransaction _ newTransaction fresh => Persistable newTransaction ∧ fresh.now.isUtc
  | .commitImport _ csvData fresh =>
    (∀ candidates, wiring.parser csvData = .ok candidates → ∀ candidate ∈ candidates,
      ∀ newTransaction ∈ candidate.readable, Persistable newTransaction) ∧ ∀ i, (fresh i).now.isUtc
  | .generateInsight .. | .listSnapshots .. => False
  | .getPortfolio _ | .listTransactions _ | .previewImport .. | .analyze .. => True

/-- A call, with the time of the server at which it is answered. -/
structure TimedCall (F : Type) where
  call : Call F
  now : DateTime

variable {server : Server} {snapshots : AnalysisSnapshotPort F (PostgresWorld F) (Error ⊕ DatabaseError)}
  {users unused : List UUID} {ahead : List DateTime} {now : DateTime} {world : World F} {session : PostgresWorld F}
  [UnicodeDatabase] [FloatArithmetic F]

/-- A call that is admitted is answered alike. -/
theorem Settled.serve (documented : server.Documented) (ctx : Context) {wiring : Wiring} {call : Call F}
    {rest : List UUID} (settled : Settled server users (call.request.ids wiring ++ rest) (now :: ahead) world session)
    (later : ∀ time ∈ ahead, now.instant < time.instant) (distinct : (call.request.ids wiring ++ rest).Nodup)
    (admitted : call.request.Admitted wiring) (registered : call.ownerId ∈ users) :
    Simulates Sum.inl (Settled server users rest ahead) ((InMemoryUnitOfWork F).serve ctx wiring call)
      ((SqlAlchemyUnitOfWork server now snapshots).serve ctx wiring call) world session := by
  obtain ⟨ownerId, request⟩ := call
  have passed := settled.pass
  cases request with
  | createPortfolio name baseCurrency id =>
    exact (Settled.createPortfolio documented settled later admitted registered rfl distinct).map _
  | getPortfolio portfolioId => exact (passed.getPortfolio ownerId portfolioId).map _
  | listPortfolios limit offset => exact (passed.listPortfolios ownerId admitted.1 admitted.2).map _
  | createTransaction portfolioId newTransaction fresh =>
    exact (passed.createTransaction documented ctx ownerId portfolioId admitted.1 admitted.2 rfl distinct).map _
  | listTransactions portfolioId => exact (passed.ownedLedger ownerId portfolioId).map _
  | previewImport portfolioId csvData fresh =>
    exact (passed.preview ctx wiring.parser ownerId portfolioId csvData fresh).map _
  | commitImport portfolioId csvData fresh =>
    exact (passed.commit documented ctx wiring.parser ownerId portfolioId csvData admitted.2 admitted.1 rfl
      distinct).map _
  | analyze portfolioId startDate endDate marketData =>
    exact (passed.analyze ctx wiring.methodology ownerId portfolioId startDate endDate marketData).map _
  | generateInsight | listSnapshots => exact admitted.elim

/-- Whatever is asked of the two backends in whatever order: PostgreSQL and the store in memory give the
same answers, none of them an error of the database, make the same outside calls, and in the end the tables hold
what the store holds. -/
theorem backends_agree (documented : server.Documented)
    (snapshots : AnalysisSnapshotPort F (PostgresWorld F) (Error ⊕ DatabaseError)) (ctx : Context) (wiring : Wiring)
    (users : List UUID) {calls : List (TimedCall F)}
    (admitted : ∀ timed ∈ calls, timed.call.request.Admitted wiring ∧ timed.call.ownerId ∈ users)
    (distinct : (calls.flatMap fun timed => timed.call.request.ids wiring).Nodup)
    (moving : calls.Pairwise fun earlier later => earlier.now.instant < later.now.instant) :
    let memory := Program.outcomes (fun timed => serve ctx wiring timed.call) calls ({} : World F)
    let postgres := Program.outcomes
      (fun timed => (SqlAlchemyUnitOfWork server timed.now snapshots).serve ctx wiring timed.call) calls
      { committed := { users := users } }
    postgres.1 = memory.1.map (Except.mapError Sum.inl) ∧ postgres.2.calls = memory.2.calls ∧
      Backs server postgres.2.drawn memory.2.store postgres.2.committed := by
  -- What the calls still to come rely on: unused ids, times ahead, and that they are admitted.
  let Pending := fun (calls : List (TimedCall F)) (world : World F) (session : PostgresWorld F) =>
    Settled server users (calls.flatMap fun timed => timed.call.request.ids wiring) (calls.map TimedCall.now) world
      session ∧
    (calls.flatMap fun timed => timed.call.request.ids wiring).Nodup ∧
    (calls.Pairwise fun earlier later => earlier.now.instant < later.now.instant) ∧
    ∀ timed ∈ calls, timed.call.request.Admitted wiring ∧ timed.call.ownerId ∈ users
  have start : Pending calls {} { committed := { users := users } } := by
    refine ⟨⟨Backs.empty server users, rfl, rfl, rfl, fun _ _ used => ?_, by simp⟩, distinct, moving, admitted⟩
    simp [Store.ids, Dict.keys] at used
  have each : ∀ timed rest world session, Pending (timed :: rest) world session →
      Simulates Sum.inl (Pending rest) (serve ctx wiring timed.call)
        ((SqlAlchemyUnitOfWork server timed.now snapshots).serve ctx wiring timed.call) world session := by
    intro timed rest world session pending
    obtain ⟨settled, distinct, moving, admitted⟩ := pending
    obtain ⟨head, tail⟩ := List.forall_mem_cons.mp admitted
    obtain ⟨first, later⟩ := List.pairwise_cons.mp moving
    rw [List.flatMap_cons] at settled distinct
    have ahead : ∀ time ∈ rest.map TimedCall.now, timed.now.instant < time.instant := List.forall_mem_map.mpr first
    refine Simulates.mono ?_ fun _ _ done => ⟨done, (List.nodup_append.mp distinct).2.1, later, tail⟩
    rw [← InMemoryUnitOfWork.serve_eq]
    exact settled.serve documented ctx ahead distinct head.1 head.2
  obtain ⟨answers, final⟩ := Simulates.outcomes Pending each calls start
  exact ⟨answers, final.1.calls, final.1.backs⟩

end Runs

section Samples

attribute [local instance] Text.asciiDatabase FloatArithmetic.rational

/-- A server with ASCII rules, and ids beyond those of the application. -/
def sampleServer : Server where
  upper text := String.ofList (text.toList.map Char.toUpper)
  uuid4 n := ⟨1000 + n⟩

theorem sampleServer_documented : sampleServer.Documented where
  uuid4 := fun m n same => Nat.add_left_cancel (congrArg UUID.int same)
  upper := by
    intro text capitals
    have raised : text.toList.map Char.toUpper = text.toList :=
      (List.map_congr_left fun c listed => toUpper_of_capital (capitals c listed)).trans (List.map_id _)
    change String.ofList (text.toList.map Char.toUpper) = text
    rw [raised, String.ofList_toList]

theorem dollars : CurrencyCode "USD" where
  length := rfl
  capitals := by
    have all : "USD".toList.all fun c => 'A' ≤ c ∧ c ≤ 'Z' := by decide +kernel
    simpa only [List.all_eq_true, decide_eq_true_eq] using all

theorem samplePurchase_persistable {externalId symbol : String} (id : Nat)
    (named : 1 ≤ externalId.length ∧ externalId.length ≤ 100) (listed : 1 ≤ symbol.length ∧ symbol.length ≤ 32)
    (normalized : (Text.upper (Text.strip symbol)).length ≤ 32) (text : '\x00' ∉ (Text.strip externalId).toList)
    (spelled : '\x00' ∉ (Text.upper (Text.strip symbol)).toList) :
    Persistable (samplePurchase 7 externalId symbol id).newTransaction := by
  obtain ⟨accepts, convertible, fits⟩ := samplePurchase_admitted 7 id named listed normalized
  refine ⟨accepts, convertible, ⟨text, ?_⟩, fits⟩
  rintro _ ⟨⟩
  exact spelled

/-- A purchase, its repetition under another id, an import, and looks at the ledger by a stranger and by the
owner. -/
def sampleTimedCalls : List (TimedCall ℚ) :=
  let first := samplePurchase 7 "first" " aapl " 3
  let again := samplePurchase 7 "first " "AAPL" 4
  [⟨⟨⟨1⟩, .createPortfolio "Growth" "USD" ⟨7⟩⟩, sampleTime 0⟩,
    ⟨⟨⟨1⟩, .createTransaction ⟨7⟩ first.newTransaction first.fresh⟩, sampleTime 1⟩,
    ⟨⟨⟨1⟩, .createTransaction ⟨7⟩ again.newTransaction again.fresh⟩, sampleTime 2⟩,
    ⟨⟨⟨1⟩, .commitImport ⟨7⟩ (asciiBytes depositDocument) countingFresh⟩, sampleTime 3⟩,
    ⟨⟨⟨2⟩, .listTransactions ⟨7⟩⟩, sampleTime 4⟩,
    ⟨⟨⟨1⟩, .listPortfolios 20 0⟩, sampleTime 5⟩]

/-- A table of snapshots that is not there. -/
def missingSnapshots : AnalysisSnapshotPort ℚ (PostgresWorld ℚ) (Error ⊕ DatabaseError) where
  add _ := Program.raise (.inr (.runtimeError "no table"))
  listForPortfolio _ _ _ := Program.raise (.inr (.runtimeError "no table"))
  countForPortfolio _ := Program.raise (.inr (.runtimeError "no table"))

theorem depositCandidate_persistable : ∀ newTransaction ∈ depositCandidate.readable, Persistable newTransaction := by
  rintro _ ⟨⟩
  have amount : moneyField.Admits (.finite false 10 0) :=
    ⟨rfl, by norm_num [Decimal.value], fun _ => by norm_num [Decimal.value],
      withinDigits_value 0 (by decide) (by decide)⟩
  have fees : feesField.Admits (.finite false 0 0) :=
    ⟨rfl, by norm_num [Decimal.value], by rintro ⟨⟩, withinDigits_value 0 (by decide) (by decide)⟩
  refine ⟨⟨by decide, rfl, ?_, ?_, ?_, ?_, fees, rfl⟩, by decide +kernel, ⟨by decide, ?_⟩, ?_⟩
  · rintro _ ⟨⟩
  · rintro _ ⟨⟩
  · rintro _ ⟨⟩
  · rintro _ ⟨⟩
    exact amount
  · rintro _ ⟨⟩
  · rintro _ ⟨⟩

theorem sample_backends_agree :
    let memory := Program.outcomes (fun timed => serve .exact depositWiring timed.call) sampleTimedCalls {}
    let postgres := Program.outcomes
      (fun timed => (SqlAlchemyUnitOfWork sampleServer timed.now missingSnapshots).serve .exact depositWiring
        timed.call)
      sampleTimedCalls { committed := { users := [⟨1⟩, ⟨2⟩] } }
    memory.1.map Except.isOk = [true, true, true, true, false, true] ∧
      postgres.1 = memory.1.map (Except.mapError Sum.inl) ∧
      postgres.2.committed.assets = [⟨⟨1000⟩, "AAPL"⟩] := by
  have parsed : depositWiring.parser (asciiBytes depositDocument) = .ok [depositCandidate] := by decide +kernel
  have imported : ∀ candidates, depositWiring.parser (asciiBytes depositDocument) = .ok candidates →
      ∀ candidate ∈ candidates, ∀ newTransaction ∈ candidate.readable, Persistable newTransaction := by
    intro candidates accepted candidate listed
    cases parsed.symm.trans accepted
    cases List.mem_singleton.mp listed
    exact depositCandidate_persistable
  have admitted : ∀ timed ∈ sampleTimedCalls,
      timed.call.request.Admitted depositWiring ∧ timed.call.ownerId ∈ [(⟨1⟩ : UUID), ⟨2⟩] := by
    simp only [sampleTimedCalls, List.forall_mem_cons, List.not_mem_nil, false_imp_iff, implies_true, and_true]
    refine ⟨⟨⟨by decide, dollars⟩, by decide⟩, ⟨⟨?_, rfl⟩, by decide⟩, ⟨⟨?_, rfl⟩, by decide⟩,
      ⟨⟨imported, fun _ => rfl⟩, by decide⟩, ⟨trivial, by decide⟩,
      ⟨⟨⟨by decide, by decide⟩, by decide, by decide⟩, by decide⟩⟩ <;>
    exact samplePurchase_persistable _ (by decide) (by decide) (by decide) (by decide) (by decide)
  have agree := backends_agree sampleServer_documented missingSnapshots .exact depositWiring [⟨1⟩, ⟨2⟩] admitted
    (by decide +kernel) (by decide +kernel)
  exact ⟨by decide +kernel, agree.1, by decide +kernel⟩

end Samples
end LedgerLens

import LedgerLens.TransactionTables
import LedgerLens.UnitOfWork

namespace LedgerLens

/-- `PortfolioRecord`, without the time of its last update. -/
structure PortfolioRecord where
  id : UUID
  ownerId : UUID
  name : String
  baseCurrency : String
  createdAt : DateTime
  deriving DecidableEq

/-- What the server and `uuid4` bring along. -/
structure Server where
  /-- `upper` in the locale of the database. -/
  upper : String → String
  /-- The ids in the order in which they are drawn. -/
  uuid4 : Nat → UUID

/-- The tables; of the users only the keys are met. -/
structure Database where
  users : List UUID
  portfolios : List PortfolioRecord := []
  assets : List AssetRecord := []
  transactions : List TransactionRecord := []

/-- The number of rows that `LIMIT` and `OFFSET` take: a `BIGINT` that is not negative. -/
def rowCount (clause : String) (n : Int) : Except DatabaseError Nat :=
  if 0 ≤ n ∧ n < 2 ^ 63 then .ok n.toNat else .error (.dataError clause)

namespace Database
variable (database : Database)

/-- The tables that the transaction repository works on. -/
def tables : Tables where
  portfolios := database.portfolios.map PortfolioRecord.id
  assets := database.assets
  transactions := database.transactions

def withTables (tables : Tables) : Database :=
  { database with assets := tables.assets, transactions := tables.transactions }

def insertPortfolio (server : Server) (record : PortfolioRecord) : Except DatabaseError Database := do
  let name ← columnValue "name" (Sql.varchar 100 record.name)
  let baseCurrency ← columnValue "base_currency" (Sql.varchar 3 record.baseCurrency)
  if ¬ (baseCurrency = server.upper baseCurrency ∧ baseCurrency.length = 3) then
    .error (.checkViolation "ck_portfolios_base_currency_code")
  else if database.portfolios.any fun other => other.id = record.id then .error (.uniqueViolation "pk_portfolios")
  else if database.users.all fun user => user ≠ record.ownerId then
    .error (.foreignKeyViolation "fk_portfolios_owner_id_users")
  else
    let record := { record with name := name, baseCurrency := baseCurrency }
    return { database with portfolios := database.portfolios ++ [record] }

end Database

/-- What is committed, what the open transaction sees, and how many ids were drawn so far. -/
structure PostgresWorld (F : Type) where
  committed : Database
  working : Database := committed
  drawn : Nat := 0
  calls : List (OutsideCall F) := []

namespace AsyncSession

abbrev Statement (F α : Type) := Program (PostgresWorld F) (Error ⊕ DatabaseError) α

variable {F α : Type}

def query (ask : Database → Except DatabaseError α) : Statement F α :=
  ⟨fun world => ((ask world.working).mapError .inr, world)⟩

/-- A change to the working copy for which ids are drawn; an error leaves the copy where it was. -/
def execute (ids : Nat) (change : PostgresWorld F → Except DatabaseError Database) : Statement F Unit :=
  ⟨fun world =>
    match change world with
    | .ok database => (.ok (), { world with working := database, drawn := world.drawn + ids })
    | .error raised => (.error (.inr raised), { world with drawn := world.drawn + ids })⟩

/-- A session of its own around the body. What was not committed is gone when it is left. -/
def within (body : Statement F α) : Statement F α :=
  ⟨fun world =>
    let (answer, left) := body.run { world with working := world.committed }
    (answer, { left with working := left.committed })⟩

def commit : Statement F Unit := Program.modify fun world => { world with committed := world.working }

variable {world left : PostgresWorld F}

theorem execute_run {ids : Nat} {change : PostgresWorld F → Except DatabaseError Database} {database : Database}
    (changed : change world = .ok database) :
    (execute ids change).run world = (.ok (), { world with working := database, drawn := world.drawn + ids }) := by
  unfold execute
  simp only [changed]

theorem within_run {body : Statement F α} {answer : Except (Error ⊕ DatabaseError) α}
    (run : body.run { world with working := world.committed } = (answer, left)) :
    (within body).run world = (answer, { left with working := left.committed }) := by
  unfold within
  simp only [run]

end AsyncSession

namespace PostgresPortfolioRepository
variable {F : Type}

/-- `_portfolio_to_domain` -/
def toDomain (record : PortfolioRecord) : Portfolio where
  id := record.id
  ownerId := record.ownerId
  name := record.name
  baseCurrency := record.baseCurrency

/-- The column of the time of creation has the time of the server for its default. -/
def add (server : Server) (now : DateTime) (portfolio : Portfolio) : AsyncSession.Statement F Unit :=
  AsyncSession.execute 0 fun world => world.working.insertPortfolio server {
    id := portfolio.id
    ownerId := portfolio.ownerId
    name := portfolio.name
    baseCurrency := portfolio.baseCurrency
    createdAt := now }

def get (portfolioId : UUID) : AsyncSession.Statement F (Option Portfolio) :=
  AsyncSession.query fun database =>
    .ok ((database.portfolios.find? fun record => record.id = portfolioId).map toDomain)

/-- The lock on the row does nothing where sessions follow one another. -/
def getForUpdate (portfolioId : UUID) : AsyncSession.Statement F (Option Portfolio) := get portfolioId

def listForOwner (ownerId : UUID) (limit offset : Int) : AsyncSession.Statement F (List Portfolio) :=
  AsyncSession.query fun database => do
    let limit ← rowCount "limit" limit
    let offset ← rowCount "offset" offset
    let records := StableSort.sortOn
      (fun record : PortfolioRecord => toLex (OrderDual.toDual record.createdAt.instant, OrderDual.toDual record.id))
      (database.portfolios.filter fun record => record.ownerId = ownerId)
    return ((records.drop offset).take limit).map toDomain

def countForOwner (ownerId : UUID) : AsyncSession.Statement F Nat :=
  AsyncSession.query fun database => .ok (database.portfolios.filter fun record => record.ownerId = ownerId).length

end PostgresPortfolioRepository

namespace PostgresTransactionRepository
variable {F : Type}

/-- `add` in a session; an id is drawn where there is a symbol to look up. -/
def addInSession (server : Server) (now : DateTime) (transaction : Transaction) : AsyncSession.Statement F Unit :=
  AsyncSession.execute transaction.symbol.toList.length fun world => do
    let tables ← add world.working.tables ⟨server.uuid4 world.drawn, now⟩ transaction
    return world.working.withTables tables

def getByExternalIdInSession (portfolioId : UUID) (externalId : String) :
    AsyncSession.Statement F (Option Transaction) :=
  AsyncSession.query fun database => getByExternalId database.tables portfolioId externalId

def listForPortfolioInSession (portfolioId : UUID) : AsyncSession.Statement F (List Transaction) :=
  AsyncSession.query fun database => listForPortfolio database.tables portfolioId

end PostgresTransactionRepository

/-- `SqlAlchemyUnitOfWork`, by the clock of the server. The table of the snapshots, with its columns of JSON,
is left open. -/
def SqlAlchemyUnitOfWork {F : Type} (server : Server) (now : DateTime)
    (analysisSnapshots : AnalysisSnapshotPort F (PostgresWorld F) (Error ⊕ DatabaseError)) :
    UnitOfWork F (PostgresWorld F) (Error ⊕ DatabaseError) where
  portfolios := {
    add := PostgresPortfolioRepository.add server now
    get := PostgresPortfolioRepository.get
    getForUpdate := PostgresPortfolioRepository.getForUpdate
    listForOwner := PostgresPortfolioRepository.listForOwner
    countForOwner := PostgresPortfolioRepository.countForOwner }
  transactions := {
    add := PostgresTransactionRepository.addInSession server now
    getByExternalId := PostgresTransactionRepository.getByExternalIdInSession
    listForPortfolio := PostgresTransactionRepository.listForPortfolioInSession }
  analysisSnapshots := analysisSnapshots
  within := AsyncSession.within
  commit := AsyncSession.commit
  record calls := Program.modify fun world => { world with calls := world.calls ++ calls }
  raised := .inl
  caught := Sum.getLeft?

end LedgerLens

import LedgerLens.LedgerOrder
import LedgerLens.Library.Program

namespace LedgerLens

/-- `InMemoryStore`, without the user table. -/
structure Store (F : Type) where
  portfolios : Dict UUID Portfolio := .empty
  transactions : List Transaction := []
  analysisSnapshots : List (AnalysisSnapshot F) := []
  deriving DecidableEq

/-- A call that leaves the application: to the CSV parser, to the market data provider, or to the
insight generator. -/
inductive OutsideCall (F : Type) where
  | parsed (csvData : List UInt8)
  | fetched (symbol : String) (startDate endDate : Date)
  | generated (input : InsightInput F)
  deriving DecidableEq

/-- The store and the outside calls made so far. -/
structure World (F : Type) where
  store : Store F := {}
  calls : List (OutsideCall F) := []
  deriving DecidableEq

abbrev Service (F α : Type) := Program (World F) Error α

variable {F : Type}

def Store.addTransaction (store : Store F) (transaction : Transaction) : Store F :=
  { store with transactions := store.transactions ++ [transaction] }

def Store.addSnapshot (store : Store F) (snapshot : AnalysisSnapshot F) : Store F :=
  { store with analysisSnapshots := store.analysisSnapshots ++ [snapshot] }

def Store.addPortfolio (store : Store F) (portfolio : Portfolio) : Store F :=
  { store with
    portfolios := store.portfolios.set portfolio.id portfolio
    transactions := store.transactions ++ portfolio.transactions }

def World.update (world : World F) (change : Store F → Store F) : World F :=
  { world with store := change world.store }

def World.record (world : World F) (call : OutsideCall F) : World F :=
  { world with calls := world.calls ++ [call] }

@[simp] theorem World.update_store (world : World F) (change : Store F → Store F) :
    (world.update change).store = change world.store := rfl

@[simp] theorem World.update_calls (world : World F) (change : Store F → Store F) :
    (world.update change).calls = world.calls := rfl

@[simp] theorem World.record_store (world : World F) (call : OutsideCall F) :
    (world.record call).store = world.store := rfl

/-- Make an outside call, note it, and pass on what it raises. -/
def callOutside {α : Type} (call : OutsideCall F) (answer : Except Error α) : Service F α := do
  Program.modify fun world => world.record call
  Program.lift answer

/-- The rows of one portfolio in insertion order. -/
def rowsOf (portfolioId : UUID) (rows : List Transaction) : List Transaction :=
  rows.filter fun transaction => transaction.portfolioId = portfolioId

def Store.rows (store : Store F) (portfolioId : UUID) : List Transaction :=
  rowsOf portfolioId store.transactions

/-- `list_for_portfolio` of the transaction repository. -/
def Store.ledger (store : Store F) (portfolioId : UUID) : List Transaction :=
  ledgerSorted (store.rows portfolioId)

/-- `get_by_external_id` of the transaction repository. -/
def Store.byExternalId (store : Store F) (portfolioId : UUID) (externalId : String) : Option Transaction :=
  store.transactions.find? fun transaction =>
    transaction.portfolioId = portfolioId ∧ transaction.externalId = externalId

/-- A Python slice with step one; negative bounds count from the end. -/
def pySlice {α : Type} (xs : List α) (start stop : Int) : List α :=
  let clamp (i : Int) : Nat := (if i < 0 then i + xs.length else i).toNat
  (xs.take (clamp stop)).drop (clamp start)

namespace PortfolioRepository

def add (portfolio : Portfolio) : Service F Unit := do
  let existing ← Program.read fun world => world.store.portfolios.get? portfolio.id
  if existing.isSome then Program.raise (.portfolioAlreadyExists portfolio.id)
  else Program.modify fun world => world.update fun store => store.addPortfolio portfolio

def get (portfolioId : UUID) : Service F (Option Portfolio) :=
  Program.read fun world => world.store.portfolios.get? portfolioId

def getForUpdate (portfolioId : UUID) : Service F (Option Portfolio) := get portfolioId

def listForOwner (ownerId : UUID) (limit offset : Int) : Service F (List Portfolio) :=
  Program.read fun world =>
    let ordered := ((world.store.portfolios.entries.map Prod.snd).reverse).filter
      fun portfolio => portfolio.ownerId = ownerId
    pySlice ordered offset (offset + limit)

def countForOwner (ownerId : UUID) : Service F Nat :=
  Program.read fun world =>
    ((world.store.portfolios.entries.map Prod.snd).filter fun portfolio => portfolio.ownerId = ownerId).length

end PortfolioRepository

namespace TransactionRepository

def add (transaction : Transaction) : Service F Unit :=
  Program.modify fun world => world.update fun store => store.addTransaction transaction

def getByExternalId (portfolioId : UUID) (externalId : String) : Service F (Option Transaction) :=
  Program.read fun world => world.store.byExternalId portfolioId externalId

def listForPortfolio (portfolioId : UUID) : Service F (List Transaction) :=
  Program.read fun world => world.store.ledger portfolioId

end TransactionRepository

namespace AnalysisSnapshotRepository

def add (snapshot : AnalysisSnapshot F) : Service F Unit :=
  Program.modify fun world => world.update fun store => store.addSnapshot snapshot

def listForPortfolio (portfolioId : UUID) (limit offset : Int) : Service F (List (AnalysisSnapshot F)) :=
  Program.read fun world =>
    let ordered := (StableSort.sortOn
      (fun snapshot : AnalysisSnapshot F => toLex (OrderDual.toDual snapshot.generatedAt.instant,
        OrderDual.toDual snapshot.id))
      (world.store.analysisSnapshots.filter fun snapshot => snapshot.portfolioId = portfolioId))
    pySlice ordered offset (offset + limit)

def countForPortfolio (portfolioId : UUID) : Service F Nat :=
  Program.read fun world =>
    (world.store.analysisSnapshots.filter fun snapshot => snapshot.portfolioId = portfolioId).length

end AnalysisSnapshotRepository

section Runs
variable (world : World F) (portfolioId ownerId : UUID)

@[simp] theorem PortfolioRepository.get_run :
    (get portfolioId).run world = (.ok (world.store.portfolios.get? portfolioId), world) := rfl

@[simp] theorem PortfolioRepository.getForUpdate_run :
    (getForUpdate portfolioId).run world = (.ok (world.store.portfolios.get? portfolioId), world) := rfl

@[simp] theorem TransactionRepository.add_run (transaction : Transaction) :
    (add transaction).run world = (.ok (), world.update fun store => store.addTransaction transaction) := rfl

@[simp] theorem TransactionRepository.getByExternalId_run (externalId : String) :
    (getByExternalId portfolioId externalId).run world =
      (.ok (world.store.byExternalId portfolioId externalId), world) := rfl

@[simp] theorem TransactionRepository.listForPortfolio_run :
    (listForPortfolio portfolioId).run world = (.ok (world.store.ledger portfolioId), world) := rfl

@[simp] theorem callOutside_run {α : Type} (call : OutsideCall F) (answer : Except Error α) :
    (callOutside call answer).run world = (answer, world.record call) := rfl

end Runs
end LedgerLens

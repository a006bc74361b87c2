import LedgerLens.BuildTransaction
import LedgerLens.Store

namespace LedgerLens
open Decimal (Context)
variable {F : Type}

/-- The ownership check every service repeats. -/
def requireOwned (ownerId portfolioId : UUID) (portfolio : Option Portfolio) : Except Error Portfolio :=
  match portfolio with
  | none => .error (.portfolioNotFound portfolioId)
  | some portfolio =>
    if portfolio.ownerId ≠ ownerId then .error (.portfolioNotFound portfolioId) else .ok portfolio

structure PortfolioPage where
  items : List Portfolio
  total : Nat
  limit : Int
  offset : Int
  deriving DecidableEq

namespace PortfolioService
variable [UnicodeDatabase]

def create (ownerId : UUID) (name baseCurrency : String) (id : UUID) : Service F Portfolio := do
  let portfolio : Portfolio :=
    { id := id, ownerId := ownerId, name := name, baseCurrency := Text.upper (Text.strip baseCurrency) }
  PortfolioRepository.add portfolio
  return portfolio

def get (ownerId portfolioId : UUID) : Service F Portfolio := do
  let portfolio ← PortfolioRepository.get portfolioId
  Program.lift (requireOwned ownerId portfolioId portfolio)

def list (ownerId : UUID) (limit offset : Int) : Service F PortfolioPage := do
  let items ← PortfolioRepository.listForOwner ownerId limit offset
  let total ← PortfolioRepository.countForOwner ownerId
  return ⟨items, total, limit, offset⟩

end PortfolioService

structure TransactionCreation where
  transaction : Transaction
  created : Bool
  deriving DecidableEq

namespace TransactionService
variable [UnicodeDatabase]

def create (ctx : Context) (ownerId portfolioId : UUID) (newTransaction : NewTransaction) (fresh : Fresh) :
    Service F TransactionCreation := do
  let portfolio ← PortfolioRepository.getForUpdate portfolioId
  let _ ← Program.lift (requireOwned ownerId portfolioId portfolio)
  let transaction ← Program.lift (buildTransaction portfolioId newTransaction fresh.id fresh.now)
  Program.lift (validateTransaction transaction)
  match ← TransactionRepository.getByExternalId portfolioId transaction.externalId with
  | some existing =>
    if sameTransactionPayload existing transaction then return ⟨existing, false⟩
    else Program.raise (.transactionIdempotencyConflict portfolioId transaction.externalId)
  | none =>
    let ledger ← TransactionRepository.listForPortfolio portfolioId
    let _ ← Program.lift (derivePositions ctx (ledger ++ [transaction]))
    TransactionRepository.add transaction
    return ⟨transaction, true⟩

def list (ownerId portfolioId : UUID) : Service F (List Transaction) := do
  let portfolio ← PortfolioRepository.get portfolioId
  let _ ← Program.lift (requireOwned ownerId portfolioId portfolio)
  TransactionRepository.listForPortfolio portfolioId

end TransactionService
end LedgerLens

import LedgerLens.ImportService
import LedgerLens.AnalyticsService

namespace LedgerLens
open Decimal (Context)

/-- What the services are wired with at start-up. -/
structure Wiring where
  parser : TransactionCsvParser
  methodology : AnalyticsMethodology

/-- One call to one of the five services, with what its id factory, its clock and the outside
components answer while it runs. -/
inductive Request (F : Type) where
  | createPortfolio (name baseCurrency : String) (id : UUID)
  | getPortfolio (portfolioId : UUID)
  | listPortfolios (limit offset : Int)
  | createTransaction (portfolioId : UUID) (newTransaction : NewTransaction) (fresh : Fresh)
  | listTransactions (portfolioId : UUID)
  | previewImport (portfolioId : UUID) (csvData : List UInt8) (fresh : Nat → Fresh)
  | commitImport (portfolioId : UUID) (csvData : List UInt8) (fresh : Nat → Fresh)
  | analyze (portfolioId : UUID) (startDate endDate : Date) (marketData : MarketData)
  | generateInsight (portfolioId : UUID) (startDate endDate : Date) (marketData : MarketData)
      (generator : Option (InsightGenerator F)) (fresh : Fresh)
  | listSnapshots (portfolioId : UUID) (limit offset : Int)

inductive Response (F : Type) where
  | portfolio (portfolio : Portfolio)
  | portfolios (page : PortfolioPage)
  | creation (creation : TransactionCreation)
  | ledger (transactions : List Transaction)
  | preview (report : TransactionImportPreview)
  | commit (report : TransactionImportCommit)
  | analytics (analytics : PortfolioAnalytics F)
  | insight (insight : PortfolioInsight)
  | snapshots (page : AnalysisSnapshotPage F)
  deriving DecidableEq

/-- A request with the user who makes it. -/
structure Call (F : Type) where
  ownerId : UUID
  request : Request F

variable {F : Type} [UnicodeDatabase] [FloatArithmetic F]

def serve (ctx : Context) (wiring : Wiring) (call : Call F) : Service F (Response F) :=
  match call.request with
  | .createPortfolio name baseCurrency id =>
    Response.portfolio <$> PortfolioService.create call.ownerId name baseCurrency id
  | .getPortfolio portfolioId => Response.portfolio <$> PortfolioService.get call.ownerId portfolioId
  | .listPortfolios limit offset => Response.portfolios <$> PortfolioService.list call.ownerId limit offset
  | .createTransaction portfolioId newTransaction fresh =>
    Response.creation <$>
      TransactionService.create ctx call.ownerId portfolioId newTransaction fresh
  | .listTransactions portfolioId => Response.ledger <$> TransactionService.list call.ownerId portfolioId
  | .previewImport portfolioId csvData fresh =>
    Response.preview <$>
      TransactionImportService.preview ctx wiring.parser call.ownerId portfolioId csvData fresh
  | .commitImport portfolioId csvData fresh =>
    Response.commit <$>
      TransactionImportService.commit ctx wiring.parser call.ownerId portfolioId csvData fresh
  | .analyze portfolioId startDate endDate marketData =>
    Response.analytics <$> PortfolioAnalyticsService.analyze ctx wiring.methodology call.ownerId
      portfolioId startDate endDate marketData
  | .generateInsight portfolioId startDate endDate marketData generator fresh =>
    Response.insight <$> PortfolioInsightService.generate ctx wiring.methodology call.ownerId
      portfolioId startDate endDate marketData generator fresh
  | .listSnapshots portfolioId limit offset =>
    Response.snapshots <$> PortfolioInsightService.listSnapshots call.ownerId portfolioId limit offset

/-- The world after a sequence of calls, whatever each of them answered. -/
def runCalls (ctx : Context) (wiring : Wiring) (world : World F) (calls : List (Call F)) : World F :=
  calls.foldl (fun world call => ((serve ctx wiring call).run world).2) world

end LedgerLens

import LedgerLens.TransactionService
import LedgerLens.Valuation
import LedgerLens.Analytics
import LedgerLens.Insights

namespace LedgerLens
open Decimal (Context)
variable {F : Type}

structure MarketDataResult where
  priceBars : List PriceBar
  stale : Bool := false
  deriving DecidableEq

/-- The answers of the market data provider during one call. -/
abbrev MarketData := String → Date → Date → Except Error MarketDataResult

structure InsightGenerator (F : Type) where
  generatorName : String
  modelName : String
  promptVersion : String
  generate : InsightInput F → Except Error GeneratedInsight

structure AnalysisSnapshotPage (F : Type) where
  items : List (AnalysisSnapshot F)
  total : Nat
  limit : Int
  offset : Int
  deriving DecidableEq

/-- The fetches of all symbols start together; one that raises does not keep the others from being
made. -/
def fetchAll (marketData : MarketData) (symbols : List String) (startDate endDate : Date) :
    Service F (List MarketDataResult) := do
  Program.modify fun world =>
    { world with calls := world.calls ++ symbols.map fun symbol => .fetched symbol startDate endDate }
  Program.lift (symbols.mapM fun symbol => marketData symbol startDate endDate)

/-- `InvalidPortfolioValuationError` reaches the caller as `PortfolioAnalyticsUnavailableError`. -/
def asUnavailable {α : Type} : Except Error α → Except Error α
  | .error (.invalidPortfolioValuation message) => .error (.portfolioAnalyticsUnavailable message)
  | outcome => outcome

variable [UnicodeDatabase] [FloatArithmetic F]

namespace PortfolioAnalyticsService

/-- The measurements derived from a valuation. -/
def measure (ctx : Context) (methodology : AnalyticsMethodology) (valuation : PortfolioValuation F)
    (stale : Bool) : Except Error (PortfolioAnalytics F) := do
  let asOf ← match valuation.points.getLast? with
    | some point => .ok point.date
    | none => .error .assertionError
  let dailyReturns := valuation.periodReturns
  let annualizedVolatility ← calculateAnnualizedVolatility dailyReturns methodology.annualizationPeriods
  let sharpeRatio ← calculateSharpeRatio ctx dailyReturns methodology.annualRiskFreeRate
    methodology.annualizationPeriods
  return {
    asOf := asOf
    simpleReturn := calculateCompoundedReturn dailyReturns
    annualizedVolatility := annualizedVolatility
    maxDrawdown := some (calculateMaxDrawdownFromReturns dailyReturns)
    sharpeRatio := sharpeRatio
    portfolioValue := valuation.portfolioValue
    cashBalance := valuation.cashBalance
    assetWeights := valuation.assetWeights
    methodology := methodology
    stale := stale }

def analyze (ctx : Context) (methodology : AnalyticsMethodology) (ownerId portfolioId : UUID)
    (startDate endDate : Date) (marketData : MarketData) : Service F (PortfolioAnalytics F) := do
  let portfolio ← PortfolioRepository.get portfolioId
  let _ ← Program.lift (requireOwned ownerId portfolioId portfolio)
  let transactions ← TransactionRepository.listForPortfolio portfolioId
  if endDate < startDate then
    Program.raise (.portfolioAnalyticsUnavailable "start_date must not be after end_date")
  else
    let symbols ← Program.lift (asUnavailable (requiredPriceSymbols ctx transactions startDate endDate))
    if symbols = [] then
      Program.raise (.portfolioAnalyticsUnavailable
        "portfolio has no security holdings in the requested range")
    else
      let marketDataResults ← fetchAll marketData symbols startDate endDate
      let priceBarsBySymbol := (symbols.zip marketDataResults).foldl
        (fun bySymbol (symbol, result) => bySymbol.set symbol result.priceBars) Dict.empty
      let valuation ← Program.lift (asUnavailable
        (buildPortfolioValuation ctx transactions priceBarsBySymbol startDate endDate))
      Program.lift (measure ctx methodology valuation (marketDataResults.any MarketDataResult.stale))

end PortfolioAnalyticsService

namespace PortfolioInsightService

/-- `_build_insight_input` -/
def buildInsightInput (analytics : PortfolioAnalytics F) : InsightInput F where
  asOf := analytics.asOf
  simpleReturn := analytics.simpleReturn
  annualizedVolatility := analytics.annualizedVolatility
  maxDrawdown := analytics.maxDrawdown
  sharpeRatio := analytics.sharpeRatio
  assetWeights := analytics.assetWeights
  methodology := analytics.methodology
  stale := analytics.stale

/-- `_snapshot_metrics` -/
def snapshotMetrics (input : InsightInput F) : SnapshotMetrics F where
  asOf := input.asOf.isoformat
  simpleReturn := input.simpleReturn
  annualizedVolatility := input.annualizedVolatility
  maxDrawdown := input.maxDrawdown
  sharpeRatio := input.sharpeRatio
  assetWeights := input.assetWeights.map fun weight => (weight.symbol, weight.weight)
  stale := input.stale

/-- `_snapshot_methodology` -/
def snapshotMethodology (methodology : AnalyticsMethodology) : SnapshotMethodology where
  annualRiskFreeRate := methodology.annualRiskFreeRate.str
  riskFreeRateAsOf := methodology.riskFreeRateAsOf.isoformat
  riskFreeRateAssumption := methodology.riskFreeRateAssumption
  priceBasis := methodology.priceBasis.value
  returnType := methodology.returnType.value
  annualizationPeriods := methodology.annualizationPeriods
  valuationMethod := methodology.valuationMethod
  cashFlowPolicy := methodology.cashFlowPolicy
  feePolicy := methodology.feePolicy
  dateAlignmentPolicy := methodology.dateAlignmentPolicy
  transactionDateTimezone := methodology.transactionDateTimezone

/-- `dict.fromkeys` read back: every value once, at its first place. -/
def fromKeys {α : Type} [DecidableEq α] : List α → List α
  | [] => []
  | a :: rest => a :: (fromKeys rest).filter (· ≠ a)

/-- The deterministic insight with the narrative of a generator put in. -/
def withNarrative (insight : PortfolioInsight) (generator : InsightGenerator F) (generated : GeneratedInsight) :
    PortfolioInsight :=
  { insight with
    summary := generated.summary
    limitations := fromKeys (insight.limitations ++ generated.additionalLimitations)
    generator := generator.generatorName
    modelName := some generator.modelName
    promptVersion := generator.promptVersion }

/-- Ask the optional generator; whatever it raises leaves the deterministic insight in place. -/
def narrate (generator : Option (InsightGenerator F)) (input : InsightInput F) (insight : PortfolioInsight) :
    Service F PortfolioInsight :=
  match generator with
  | none => pure insight
  | some generator => do
    let attempted ← Program.attempt (do
      let generated ← callOutside (.generated input) (generator.generate input)
      Program.lift (validateGeneratedInsight generated)
      return generated)
    match attempted with
    | .error _ => return insight
    | .ok generated => return withNarrative insight generator generated

def generate (ctx : Context) (methodology : AnalyticsMethodology) (ownerId portfolioId : UUID)
    (startDate endDate : Date) (marketData : MarketData) (generator : Option (InsightGenerator F))
    (fresh : Fresh) : Service F PortfolioInsight := do
  let analytics ← PortfolioAnalyticsService.analyze ctx methodology ownerId portfolioId startDate endDate
    marketData
  let insightInput := buildInsightInput analytics
  let insight ← narrate generator insightInput (generateDeterministicInsight analytics)
  let snapshot : AnalysisSnapshot F := {
    id := fresh.id
    portfolioId := portfolioId
    asOf := insight.asOf
    metrics := snapshotMetrics insightInput
    methodology := snapshotMethodology insightInput.methodology
    summary := some insight.summary
    generator := some insight.generator
    modelName := insight.modelName
    promptVersion := some insight.promptVersion
    generatedAt := fresh.now }
  AnalysisSnapshotRepository.add snapshot
  return insight

def listSnapshots (ownerId portfolioId : UUID) (limit offset : Int) : Service F (AnalysisSnapshotPage F) := do
  let portfolio ← PortfolioRepository.get portfolioId
  let _ ← Program.lift (requireOwned ownerId portfolioId portfolio)
  let items ← AnalysisSnapshotRepository.listForPortfolio portfolioId limit offset
  let total ← AnalysisSnapshotRepository.countForPortfolio portfolioId
  return ⟨items, total, limit, offset⟩

end PortfolioInsightService
end LedgerLens

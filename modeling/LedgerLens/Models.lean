import LedgerLens.Library.Decimal
import LedgerLens.Library.DateTime
import LedgerLens.Library.Text

namespace LedgerLens

/-- A UUID as its 128-bit integer; hexadecimal forms of one length order as the integers do. -/
@[ext] structure UUID where
  int : Nat

instance : LinearOrder UUID := LinearOrder.lift' UUID.int fun _ _ => UUID.ext

/-- The exceptions the application and domain layers raise, with the Python built-ins they can
let through. -/
inductive Error where
  | invalidTransaction (message : String)
  | invalidPriceSeries (message : String)
  | invalidPortfolioValuation (message : String)
  | portfolioNotFound (portfolioId : UUID)
  | portfolioAlreadyExists (portfolioId : UUID)
  | portfolioAnalyticsUnavailable (message : String)
  | transactionIdempotencyConflict (portfolioId : UUID) (externalId : String)
  | transactionImportFormat (message : String)
  | csvError (message : String)
  | marketDataNotFound (symbol : String)
  | marketDataInvalidResponse (message : String)
  | marketDataRateLimit
  | marketDataUnavailable
  | marketDataTimeout
  | insightGeneration (message : String)
  | valueError (message : String)
  | overflowError
  | typeError
  | timeoutError
  | unicodeDecodeError
  | assertionError
  | keyError (key : String)
  | divisionByZero
  deriving DecidableEq

structure User where
  id : UUID
  email : String
  passwordHash : String

inductive TransactionType where
  | buy
  | sell
  | deposit
  | withdrawal
  deriving DecidableEq, Repr

structure PriceBar where
  symbol : String
  date : Date
  adjustedClose : Decimal
  deriving DecidableEq

structure Transaction where
  portfolioId : UUID
  externalId : String
  transactionType : TransactionType
  occurredAt : DateTime
  symbol : Option String := none
  quantity : Option Decimal := none
  unitPrice : Option Decimal := none
  cashAmount : Option Decimal := none
  fees : Decimal := .finite false 0 0
  id : UUID
  createdAt : Option DateTime := none
  deriving DecidableEq

structure Portfolio where
  id : UUID
  ownerId : UUID
  name : String
  baseCurrency : String := "USD"
  transactions : List Transaction := []
  deriving DecidableEq

structure Position where
  symbol : String
  quantity : ℚ
  deriving DecidableEq

structure AssetWeight where
  symbol : String
  marketValue : ℚ
  weight : ℚ
  deriving DecidableEq

@[ext] structure PortfolioValuePoint where
  date : Date
  totalValue : ℚ
  cashBalance : ℚ
  netExternalFlow : ℚ
  deriving DecidableEq

/-- `F` is the type of binary floating-point numbers. -/
structure PortfolioValuation (F : Type) where
  points : List PortfolioValuePoint
  periodReturns : List F
  portfolioValue : ℚ
  cashBalance : ℚ
  assetWeights : List AssetWeight
  deriving DecidableEq

inductive PriceBasis where
  | adjustedClose
  deriving DecidableEq

def PriceBasis.value : PriceBasis → String
  | adjustedClose => "adjusted_close"

inductive ReturnType where
  | simple
  deriving DecidableEq

def ReturnType.value : ReturnType → String
  | simple => "simple"

inductive RiskLevel where
  | low
  | moderate
  | high
  | insufficientData
  deriving DecidableEq

def RiskLevel.value : RiskLevel → String
  | low => "low"
  | moderate => "moderate"
  | high => "high"
  | insufficientData => "insufficient_data"

structure AnalyticsMethodology where
  annualRiskFreeRate : Decimal
  riskFreeRateAsOf : Date
  riskFreeRateAssumption : String
  priceBasis : PriceBasis := .adjustedClose
  returnType : ReturnType := .simple
  annualizationPeriods : Int := 252
  valuationMethod : String := "end_of_day_cash_flow_adjusted"
  cashFlowPolicy : String :=
    "DEPOSIT and WITHDRAWAL are external flows; trades are internal cash-to-asset " ++
    "transfers, with an implicit contribution only for an unfunded BUY shortfall."
  feePolicy : String := "All transaction fees reduce portfolio value on their UTC date."
  dateAlignmentPolicy : String :=
    "Valuation uses the union of observed market dates and carries only previously " ++
    "observed prices forward; future prices are never used."
  transactionDateTimezone : String := "UTC"
  deriving DecidableEq

structure PortfolioAnalytics (F : Type) where
  asOf : Date
  simpleReturn : Option F
  annualizedVolatility : Option F
  maxDrawdown : Option F
  sharpeRatio : Option F
  portfolioValue : ℚ
  cashBalance : ℚ
  assetWeights : List AssetWeight
  methodology : AnalyticsMethodology
  stale : Bool := false
  deriving DecidableEq

structure PortfolioInsight where
  asOf : Date
  riskLevel : RiskLevel
  summary : String
  keyFactors : List String
  limitations : List String
  disclaimer : String
  generator : String
  modelName : Option String
  promptVersion : String
  stale : Bool
  deriving DecidableEq

structure InsightInput (F : Type) where
  asOf : Date
  simpleReturn : Option F
  annualizedVolatility : Option F
  maxDrawdown : Option F
  sharpeRatio : Option F
  assetWeights : List AssetWeight
  methodology : AnalyticsMethodology
  stale : Bool
  deriving DecidableEq

structure GeneratedInsight where
  summary : String
  additionalLimitations : List String
  deriving DecidableEq

/-- The `metrics` dictionary of a snapshot; a weight stands for its decimal text. -/
structure SnapshotMetrics (F : Type) where
  asOf : String
  simpleReturn : Option F
  annualizedVolatility : Option F
  maxDrawdown : Option F
  sharpeRatio : Option F
  assetWeights : List (String × ℚ)
  stale : Bool
  deriving DecidableEq

/-- The `methodology` dictionary of a snapshot. -/
structure SnapshotMethodology where
  annualRiskFreeRate : String
  riskFreeRateAsOf : String
  riskFreeRateAssumption : String
  priceBasis : String
  returnType : String
  annualizationPeriods : Int
  valuationMethod : String
  cashFlowPolicy : String
  feePolicy : String
  dateAlignmentPolicy : String
  transactionDateTimezone : String
  deriving DecidableEq

structure AnalysisSnapshot (F : Type) where
  id : UUID
  portfolioId : UUID
  asOf : Date
  metrics : SnapshotMetrics F
  methodology : SnapshotMethodology
  summary : Option String
  generator : Option String
  modelName : Option String
  promptVersion : Option String
  generatedAt : DateTime
  deriving DecidableEq

end LedgerLens

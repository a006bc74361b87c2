import LedgerLens.Library.StableSort
import LedgerLens.Library.Checked
import LedgerLens.Library.Dict
import LedgerLens.Library.Rounding
import LedgerLens.Library.Decimal
import LedgerLens.Library.DateTime
import LedgerLens.Library.Text
import LedgerLens.Library.Hex
import LedgerLens.Library.Redis
import LedgerLens.Library.Asgi
import LedgerLens.Library.Json
import LedgerLens.Library.DecimalText
import LedgerLens.Library.DateText
import LedgerLens.Library.JsonDecimal
import LedgerLens.Models
import LedgerLens.Library.RunningSum
import LedgerLens.Holdings
import LedgerLens.ValidTransactions
import LedgerLens.LedgerOrder
import LedgerLens.RunningPositions
import LedgerLens.Library.Program
import LedgerLens.Store
import LedgerLens.BuildTransaction
import LedgerLens.TransactionBounds
import LedgerLens.FullPrecision
import LedgerLens.BackdatedTransactions
import LedgerLens.NormalizedTransactions
import LedgerLens.TransactionService
import LedgerLens.ImportService
import LedgerLens.Library.Csv
import LedgerLens.CsvImport
import LedgerLens.Library.FloatArithmetic
import LedgerLens.Valuation
import LedgerLens.Replays
import LedgerLens.Shortfalls
import LedgerLens.Library.AsOf
import LedgerLens.RateLimit
import LedgerLens.RetryAfter
import LedgerLens.Observability
import LedgerLens.Library.Timeline
import LedgerLens.PriceTables
import LedgerLens.DailyValues
import LedgerLens.ValuationReplay
import LedgerLens.ValuationFromScratch
import LedgerLens.ValuationErrors
import LedgerLens.ReplayAgreement
import LedgerLens.Analytics
import LedgerLens.Library.Drawdown
import LedgerLens.Drawdowns
import LedgerLens.Insights
import LedgerLens.ForbiddenWords
import LedgerLens.AnalyticsService
import LedgerLens.NarrativeGenerator
import LedgerLens.MarketDataRetries
import LedgerLens.MarketDataPayloads
import LedgerLens.CachedMarketData
import LedgerLens.CachedSeries
import LedgerLens.InsightGenerators
import LedgerLens.UsableNarratives
import LedgerLens.MarketDataRuns
import LedgerLens.TwelveData
import LedgerLens.TwelveDataOutcomes
import LedgerLens.ValidMarketData
import LedgerLens.Requests
import LedgerLens.ShortHistories
import LedgerLens.Admission
import LedgerLens.StoreEffects
import LedgerLens.LedgerGrowth
import LedgerLens.SoundLedger
import LedgerLens.OwnerView
import LedgerLens.OwnerBlindness
import LedgerLens.PortfolioFrames
import LedgerLens.Library.Noninterference
import LedgerLens.OwnerIsolation
import LedgerLens.Refusals
import LedgerLens.ImportRuns
import LedgerLens.ImportReports
import LedgerLens.CsvOutcomes
import LedgerLens.Payloads
import LedgerLens.Restamping
import LedgerLens.Retries
import LedgerLens.ExactlyOnce
import LedgerLens.SameDecisions
import LedgerLens.Recommit
import LedgerLens.Previews
import LedgerLens.PreviewCommit
import LedgerLens.CashConservation
import LedgerLens.LatestSnapshot
import LedgerLens.FutureTrades
import LedgerLens.Library.RowLocks
import LedgerLens.ConcurrentCreates
import LedgerLens.SerializedCreates
import LedgerLens.UnreachableBranches
import LedgerLens.WindowIndependence
import LedgerLens.Library.Parallel
import LedgerLens.InputOrder
import LedgerLens.Library.UniqueRows
import LedgerLens.Library.Simulation
import LedgerLens.UnitOfWork
import LedgerLens.PostgresDatabase
import LedgerLens.BackedStore
import LedgerLens.PostgresRefinement
import LedgerLens.Registration
import LedgerLens.OneAccount
import LedgerLens.Library.SqlTypes
import LedgerLens.TransactionTables
import LedgerLens.AcceptedInputs
import LedgerLens.StoredRows
import LedgerLens.PersistedTransactions
import LedgerLens.InterleavedMarketData
import LedgerLens.Authentication
import LedgerLens.HttpApi
import LedgerLens.HttpIsolation
import LedgerLens.HttpRefusals
import LedgerLens.HttpRateLimits
import LedgerLens.AccessTokens
import LedgerLens.HttpAuthentication
import LedgerLens.AnswerLog
import LedgerLens.UnitChanges
import LedgerLens.RescaledRequests
import LedgerLens.RescaledValuations
import LedgerLens.UnitInvariance

import LedgerLens.Requests

namespace LedgerLens
open Decimal (Context)

/-- `PortfolioRepository`, over the state and the exceptions of a backend. -/
structure PortfolioPort (σ ε : Type) where
  add : Portfolio → Program σ ε Unit
  get : UUID → Program σ ε (Option Portfolio)
  getForUpdate : UUID → Program σ ε (Option Portfolio)
  listForOwner : UUID → Int → Int → Program σ ε (List Portfolio)
  countForOwner : UUID → Program σ ε Nat

/-- `TransactionRepository` -/
structure TransactionPort (σ ε : Type) where
  add : Transaction → Program σ ε Unit
  getByExternalId : UUID → String → Program σ ε (Option Transaction)
  listForPortfolio : UUID → Program σ ε (List Transaction)

/-- `AnalysisSnapshotRepository` -/
structure AnalysisSnapshotPort (F σ ε : Type) where
  add : AnalysisSnapshot F → Program σ ε Unit
  listForPortfolio : UUID → Int → Int → Program σ ε (List (AnalysisSnapshot F))
  countForPortfolio : UUID → Program σ ε Nat

/-- `UnitOfWork`, without the user table, with the note that is taken of outside calls. -/
structure UnitOfWork (F σ ε : Type) where
  portfolios : PortfolioPort σ ε
  transactions : TransactionPort σ ε
  analysisSnapshots : AnalysisSnapshotPort F σ ε
  /-- The body of an `async with`, between `__aenter__` and `__aexit__`. -/
  within : {α : Type} → Program σ ε α → Program σ ε α
  commit : Program σ ε Unit
  record : List (OutsideCall F) → Program σ ε Unit
  /-- The exceptions of the application among those of the backend. -/
  raised : Error → ε
  caught : ε → Option Error

namespace UnitOfWork
variable {F σ ε : Type} (unitOfWork : UnitOfWork F σ ε)

def lift {α : Type} (result : Except Error α) : Program σ ε α := Program.lift (result.mapError unitOfWork.raised)

def raise {α : Type} (e : Error) : Program σ ε α := Program.raise (unitOfWork.raised e)

def callOutside {α : Type} (call : OutsideCall F) (answer : Except Error α) : Program σ ε α := do
  unitOfWork.record [call]
  unitOfWork.lift answer

namespace PortfolioService
variable [UnicodeDatabase]

def create (ownerId : UUID) (name baseCurrency : String) (id : UUID) : Program σ ε Portfolio := do
  let portfolio : Portfolio :=
    { id := id, ownerId := ownerId, name := name, baseCurrency := Text.upper (Text.strip baseCurrency) }
  unitOfWork.within do
    unitOfWork.portfolios.add portfolio
    unitOfWork.commit
  return portfolio

def get (ownerId portfolioId : UUID) : Program σ ε Portfolio :=
  unitOfWork.within do
    let portfolio ← unitOfWork.portfolios.get portfolioId
    unitOfWork.lift (requireOwned ownerId portfolioId portfolio)

def list (ownerId : UUID) (limit offset : Int) : Program σ ε PortfolioPage := do
  let (items, total) ← unitOfWork.within do
    let items ← unitOfWork.portfolios.listForOwner ownerId limit offset
    let total ← unitOfWork.portfolios.countForOwner ownerId
    return (items, total)
  return ⟨items, total, limit, offset⟩

end PortfolioService

/-- A portfolio's ledger, for its owner. -/
def ownedLedger (ownerId portfolioId : UUID) : Program σ ε (List Transaction) :=
  unitOfWork.within do
    let portfolio ← unitOfWork.portfolios.get portfolioId
    let _ ← unitOfWork.lift (requireOwned ownerId portfolioId portfolio)
    unitOfWork.transactions.listForPortfolio portfolioId

namespace TransactionService
variable [UnicodeDatabase]

def create (ctx : Context) (ownerId portfolioId : UUID) (newTransaction : NewTransaction) (fresh : Fresh) :
    Program σ ε TransactionCreation :=
  unitOfWork.within do
    let portfolio ← unitOfWork.portfolios.getForUpdate portfolioId
    let _ ← unitOfWork.lift (requireOwned ownerId portfolioId portfolio)
    let transaction ← unitOfWork.lift (buildTransaction portfolioId newTransaction fresh.id fresh.now)
    unitOfWork.lift (validateTransaction transaction)
    match ← unitOfWork.transactions.getByExternalId portfolioId transaction.externalId with
    | some existing =>
      if sameTransactionPayload existing transaction then return ⟨existing, false⟩
      else unitOfWork.raise (.transactionIdempotencyConflict portfolioId transaction.externalId)
    | none =>
      let ledger ← unitOfWork.transactions.listForPortfolio portfolioId
      let _ ← unitOfWork.lift (derivePositions ctx (ledger ++ [transaction]))
      unitOfWork.transactions.add transaction
      unitOfWork.commit
      return ⟨transaction, true⟩

def list (ownerId portfolioId : UUID) : Program σ ε (List Transaction) := unitOfWork.ownedLedger ownerId portfolioId

end TransactionService

namespace TransactionImportService
variable [UnicodeDatabase]

/-- `_assert_owned` -/
def assertOwned (ownerId portfolioId : UUID) : Program σ ε Unit :=
  unitOfWork.within do
    let portfolio ← unitOfWork.portfolios.get portfolioId
    let _ ← unitOfWork.lift (requireOwned ownerId portfolioId portfolio)

def preview (ctx : Context) (parser : TransactionCsvParser) (ownerId portfolioId : UUID)
    (csvData : List UInt8) (fresh : Nat → Fresh) : Program σ ε TransactionImportPreview := do
  let ledger ← unitOfWork.ownedLedger ownerId portfolioId
  let candidates ← unitOfWork.callOutside (.parsed csvData) (parser csvData)
  let state : PreviewState := {
    ledger := ledger
    transactionsByExternalId :=
      ledger.foldl (fun byId transaction => byId.set transaction.externalId transaction) .empty }
  let rows ← unitOfWork.lift
    (LedgerLens.TransactionImportService.previewRows ctx portfolioId fresh state candidates.zipIdx)
  return {
    rows := rows
    totalRows := rows.length
    readyRows := countImportStatus rows .ready
    replayRows := countImportStatus rows .replay
    invalidRows := countImportStatus rows .invalid }

/-- The `except` clauses look at the exceptions of the application; those of the backend go on. -/
def commitOutcome (candidate : TransactionImportCandidate) :
    Except ε TransactionCreation → Program σ ε TransactionImportRowResult
  | .ok creation => unitOfWork.lift (LedgerLens.TransactionImportService.commitOutcome candidate (.ok creation))
  | .error e =>
    match unitOfWork.caught e with
    | some error => unitOfWork.lift (LedgerLens.TransactionImportService.commitOutcome candidate (.error error))
    | none => Program.raise e

def commitRow (ctx : Context) (ownerId portfolioId : UUID) (candidate : TransactionImportCandidate)
    (fresh : Fresh) : Program σ ε TransactionImportRowResult :=
  match candidate.readable with
  | none => pure (importRowResult candidate .failed none none)
  | some newTransaction => do
    let outcome ← (TransactionService.create unitOfWork ctx ownerId portfolioId newTransaction fresh).attempt
    commitOutcome unitOfWork candidate outcome

def commit (ctx : Context) (parser : TransactionCsvParser) (ownerId portfolioId : UUID)
    (csvData : List UInt8) (fresh : Nat → Fresh) : Program σ ε TransactionImportCommit := do
  assertOwned unitOfWork ownerId portfolioId
  let candidates ← unitOfWork.callOutside (.parsed csvData) (parser csvData)
  let rows ← Program.collect
    (fun row : TransactionImportCandidate × Nat =>
      commitRow unitOfWork ctx ownerId portfolioId row.1 (fresh row.2))
    candidates.zipIdx
  return {
    rows := rows
    totalRows := rows.length
    createdRows := countImportStatus rows .created
    replayedRows := countImportStatus rows .replayed
    failedRows := countImportStatus rows .failed }

end TransactionImportService

variable [UnicodeDatabase] [FloatArithmetic F]

def fetchAll (marketData : MarketData) (symbols : List String) (startDate endDate : Date) :
    Program σ ε (List MarketDataResult) := do
  unitOfWork.record (symbols.map fun symbol => .fetched symbol startDate endDate)
  unitOfWork.lift (symbols.mapM fun symbol => marketData symbol startDate endDate)

/-- `PortfolioAnalyticsService.analyze` -/
def PortfolioAnalyticsService.analyze (ctx : Context) (methodology : AnalyticsMethodology)
    (ownerId portfolioId : UUID) (startDate endDate : Date) (marketData : MarketData) :
    Program σ ε (PortfolioAnalytics F) := do
  let transactions ← unitOfWork.ownedLedger ownerId portfolioId
  if endDate < startDate then
    unitOfWork.raise (.portfolioAnalyticsUnavailable "start_date must not be after end_date")
  else
    let symbols ← unitOfWork.lift (asUnavailable (requiredPriceSymbols ctx transactions startDate endDate))
    if symbols = [] then
      unitOfWork.raise (.portfolioAnalyticsUnavailable
        "portfolio has no security holdings in the requested range")
    else
      let marketDataResults ← unitOfWork.fetchAll marketData symbols startDate endDate
      let priceBarsBySymbol := (symbols.zip marketDataResults).foldl
        (fun bySymbol (symbol, result) => bySymbol.set symbol result.priceBars) Dict.empty
      let valuation ← unitOfWork.lift (asUnavailable
        (buildPortfolioValuation ctx transactions priceBarsBySymbol startDate endDate))
      unitOfWork.lift (LedgerLens.PortfolioAnalyticsService.measure ctx methodology valuation
        (marketDataResults.any MarketDataResult.stale))

namespace PortfolioInsightService

def narrate (generator : Option (InsightGenerator F)) (input : InsightInput F) (insight : PortfolioInsight) :
    Program σ ε PortfolioInsight :=
  match generator with
  | none => pure insight
  | some generator => do
    let attempted ← Program.attempt (do
      let generated ← unitOfWork.callOutside (.generated input) (generator.generate input)
      unitOfWork.lift (validateGeneratedInsight generated)
      return generated)
    match attempted with
    | .error _ => return insight
    | .ok generated => return LedgerLens.PortfolioInsightService.withNarrative insight generator generated

def generate (ctx : Context) (methodology : AnalyticsMethodology) (ownerId portfolioId : UUID)
    (startDate endDate : Date) (marketData : MarketData) (generator : Option (InsightGenerator F))
    (fresh : Fresh) : Program σ ε PortfolioInsight := do
  let analytics ← PortfolioAnalyticsService.analyze unitOfWork ctx methodology ownerId portfolioId startDate endDate
    marketData
  let insightInput := LedgerLens.PortfolioInsightService.buildInsightInput analytics
  let insight ← narrate unitOfWork generator insightInput (generateDeterministicInsight analytics)
  let snapshot : AnalysisSnapshot F := {
    id := fresh.id
    portfolioId := portfolioId
    asOf := insight.asOf
    metrics := LedgerLens.PortfolioInsightService.snapshotMetrics insightInput
    methodology := LedgerLens.PortfolioInsightService.snapshotMethodology insightInput.methodology
    summary := some insight.summary
    generator := some insight.generator
    modelName := insight.modelName
    promptVersion := some insight.promptVersion
    generatedAt := fresh.now }
  unitOfWork.within do
    unitOfWork.analysisSnapshots.add snapshot
    unitOfWork.commit
  return insight

def listSnapshots (ownerId portfolioId : UUID) (limit offset : Int) : Program σ ε (AnalysisSnapshotPage F) := do
  let (items, total) ← unitOfWork.within do
    let portfolio ← unitOfWork.portfolios.get portfolioId
    let _ ← unitOfWork.lift (requireOwned ownerId portfolioId portfolio)
    let items ← unitOfWork.analysisSnapshots.listForPortfolio portfolioId limit offset
    let total ← unitOfWork.analysisSnapshots.countForPortfolio portfolioId
    return (items, total)
  return ⟨items, total, limit, offset⟩

end PortfolioInsightService

/-- The services, on whatever backend they are wired with. -/
def serve (ctx : Context) (wiring : Wiring) (call : Call F) : Program σ ε (Response F) :=
  match call.request with
  | .createPortfolio name baseCurrency id =>
    Response.portfolio <$> PortfolioService.create unitOfWork call.ownerId name baseCurrency id
  | .getPortfolio portfolioId => Response.portfolio <$> PortfolioService.get unitOfWork call.ownerId portfolioId
  | .listPortfolios limit offset =>
    Response.portfolios <$> PortfolioService.list unitOfWork call.ownerId limit offset
  | .createTransaction portfolioId newTransaction fresh =>
    Response.creation <$>
      TransactionService.create unitOfWork ctx call.ownerId portfolioId newTransaction fresh
  | .listTransactions portfolioId =>
    Response.ledger <$> TransactionService.list unitOfWork call.ownerId portfolioId
  | .previewImport portfolioId csvData fresh =>
    Response.preview <$> TransactionImportService.preview unitOfWork ctx wiring.parser call.ownerId portfolioId
      csvData fresh
  | .commitImport portfolioId csvData fresh =>
    Response.commit <$> TransactionImportService.commit unitOfWork ctx wiring.parser call.ownerId portfolioId
      csvData fresh
  | .analyze portfolioId startDate endDate marketData =>
    Response.analytics <$> PortfolioAnalyticsService.analyze unitOfWork ctx wiring.methodology call.ownerId
      portfolioId startDate endDate marketData
  | .generateInsight portfolioId startDate endDate marketData generator fresh =>
    Response.insight <$> PortfolioInsightService.generate unitOfWork ctx wiring.methodology call.ownerId
      portfolioId startDate endDate marketData generator fresh
  | .listSnapshots portfolioId limit offset =>
    Response.snapshots <$> PortfolioInsightService.listSnapshots unitOfWork call.ownerId portfolioId limit offset

end UnitOfWork

/-- `InMemoryUnitOfWork`: entering, leaving and committing do nothing. -/
def InMemoryUnitOfWork (F : Type) : UnitOfWork F (World F) Error where
  portfolios := {
    add := PortfolioRepository.add
    get := PortfolioRepository.get
    getForUpdate := PortfolioRepository.getForUpdate
    listForOwner := PortfolioRepository.listForOwner
    countForOwner := PortfolioRepository.countForOwner }
  transactions := {
    add := TransactionRepository.add
    getByExternalId := TransactionRepository.getByExternalId
    listForPortfolio := TransactionRepository.listForPortfolio }
  analysisSnapshots := {
    add := AnalysisSnapshotRepository.add
    listForPortfolio := AnalysisSnapshotRepository.listForPortfolio
    countForPortfolio := AnalysisSnapshotRepository.countForPortfolio }
  within body := body
  commit := pure ()
  record calls := Program.modify fun world => { world with calls := world.calls ++ calls }
  raised e := e
  caught e := some e

namespace InMemoryUnitOfWork
variable {F : Type} (ctx : Context) (ownerId portfolioId : UUID)

theorem lift_eq {α : Type} (result : Except Error α) : (InMemoryUnitOfWork F).lift result = Program.lift result := by
  cases result <;> rfl

theorem callOutside_eq {α : Type} (call : OutsideCall F) (answer : Except Error α) :
    (InMemoryUnitOfWork F).callOutside call answer = callOutside call answer := by
  unfold UnitOfWork.callOutside
  rw [lift_eq]
  rfl

/-- The body of an `async with`, put in the place of the statement. -/
theorem within_eq {α : Type} (body : Program (World F) Error α) : (InMemoryUnitOfWork F).within body = body := rfl

theorem getPortfolio_eq :
    UnitOfWork.PortfolioService.get (InMemoryUnitOfWork F) ownerId portfolioId =
      PortfolioService.get ownerId portfolioId := by
  unfold UnitOfWork.PortfolioService.get
  simp only [lift_eq]
  rfl

theorem listPortfolios_eq (limit offset : Int) :
    UnitOfWork.PortfolioService.list (InMemoryUnitOfWork F) ownerId limit offset =
      PortfolioService.list ownerId limit offset := by
  unfold UnitOfWork.PortfolioService.list
  simp only [within_eq, Program.bind_assoc]
  rfl

theorem ownedLedger_eq :
    UnitOfWork.ownedLedger (InMemoryUnitOfWork F) ownerId portfolioId =
      TransactionService.list ownerId portfolioId := by
  unfold UnitOfWork.ownedLedger
  simp only [lift_eq]
  rfl

theorem listSnapshots_eq (limit offset : Int) :
    UnitOfWork.PortfolioInsightService.listSnapshots (InMemoryUnitOfWork F) ownerId portfolioId limit offset =
      PortfolioInsightService.listSnapshots ownerId portfolioId limit offset := by
  unfold UnitOfWork.PortfolioInsightService.listSnapshots
  simp only [lift_eq, within_eq, Program.bind_assoc]
  rfl

theorem commitOutcome_eq (candidate : TransactionImportCandidate) (outcome : Except Error TransactionCreation) :
    UnitOfWork.TransactionImportService.commitOutcome (InMemoryUnitOfWork F) candidate outcome =
      Program.lift (TransactionImportService.commitOutcome candidate outcome) := by
  unfold UnitOfWork.TransactionImportService.commitOutcome
  simp only [lift_eq]
  cases outcome <;> rfl

variable [UnicodeDatabase]

theorem createPortfolio_eq (name baseCurrency : String) (id : UUID) :
    UnitOfWork.PortfolioService.create (InMemoryUnitOfWork F) ownerId name baseCurrency id =
      PortfolioService.create ownerId name baseCurrency id := by
  unfold UnitOfWork.PortfolioService.create
  simp only [within_eq, Program.bind_assoc]
  rfl

theorem createTransaction_eq (newTransaction : NewTransaction) (fresh : Fresh) :
    UnitOfWork.TransactionService.create (InMemoryUnitOfWork F) ctx ownerId portfolioId newTransaction fresh =
      TransactionService.create ctx ownerId portfolioId newTransaction fresh := by
  unfold UnitOfWork.TransactionService.create
  simp only [lift_eq]
  rfl

theorem preview_eq (parser : TransactionCsvParser) (csvData : List UInt8) (fresh : Nat → Fresh) :
    UnitOfWork.TransactionImportService.preview (InMemoryUnitOfWork F) ctx parser ownerId portfolioId csvData fresh =
      TransactionImportService.preview ctx parser ownerId portfolioId csvData fresh := by
  unfold UnitOfWork.TransactionImportService.preview
  simp only [ownedLedger_eq, callOutside_eq, lift_eq]
  rfl

theorem commitRow_eq (candidate : TransactionImportCandidate) (fresh : Fresh) :
    UnitOfWork.TransactionImportService.commitRow (InMemoryUnitOfWork F) ctx ownerId portfolioId candidate fresh =
      TransactionImportService.commitRow ctx ownerId portfolioId candidate fresh := by
  unfold UnitOfWork.TransactionImportService.commitRow TransactionImportService.commitRow
  cases candidate.readable with
  | none => rfl
  | some newTransaction => simp only [createTransaction_eq, commitOutcome_eq]

theorem commit_eq (parser : TransactionCsvParser) (csvData : List UInt8) (fresh : Nat → Fresh) :
    UnitOfWork.TransactionImportService.commit (InMemoryUnitOfWork F) ctx parser ownerId portfolioId csvData fresh =
      TransactionImportService.commit ctx parser ownerId portfolioId csvData fresh := by
  unfold UnitOfWork.TransactionImportService.commit UnitOfWork.TransactionImportService.assertOwned
  simp only [commitRow_eq, callOutside_eq, lift_eq]
  rfl

theorem narrate_eq (generator : Option (InsightGenerator F)) (input : InsightInput F) (insight : PortfolioInsight) :
    UnitOfWork.PortfolioInsightService.narrate (InMemoryUnitOfWork F) generator input insight =
      PortfolioInsightService.narrate generator input insight := by
  cases generator with
  | none => rfl
  | some generator =>
    simp only [UnitOfWork.PortfolioInsightService.narrate, PortfolioInsightService.narrate, callOutside_eq, lift_eq]
    refine congrArg (Bind.bind _) (funext fun attempted => ?_)
    cases attempted <;> rfl

variable [FloatArithmetic F]

theorem analyze_eq (methodology : AnalyticsMethodology) (startDate endDate : Date) (marketData : MarketData) :
    UnitOfWork.PortfolioAnalyticsService.analyze (InMemoryUnitOfWork F) ctx methodology ownerId portfolioId startDate
        endDate marketData =
      PortfolioAnalyticsService.analyze ctx methodology ownerId portfolioId startDate endDate marketData := by
  unfold UnitOfWork.PortfolioAnalyticsService.analyze UnitOfWork.fetchAll UnitOfWork.ownedLedger
  simp only [lift_eq, within_eq, Program.bind_assoc]
  rfl

theorem generate_eq (methodology : AnalyticsMethodology) (startDate endDate : Date) (marketData : MarketData)
    (generator : Option (InsightGenerator F)) (fresh : Fresh) :
    UnitOfWork.PortfolioInsightService.generate (InMemoryUnitOfWork F) ctx methodology ownerId portfolioId startDate
        endDate marketData generator fresh =
      PortfolioInsightService.generate ctx methodology ownerId portfolioId startDate endDate marketData generator
        fresh := by
  unfold UnitOfWork.PortfolioInsightService.generate
  simp only [analyze_eq, narrate_eq, within_eq, Program.bind_assoc]
  rfl

/-- The services wired with the in-memory backend. -/
theorem serve_eq (wiring : Wiring) (call : Call F) :
    (InMemoryUnitOfWork F).serve ctx wiring call = serve ctx wiring call := by
  obtain ⟨ownerId, request⟩ := call
  cases request with
  | createPortfolio => simp only [UnitOfWork.serve, serve, createPortfolio_eq]
  | getPortfolio => simp only [UnitOfWork.serve, serve, getPortfolio_eq]
  | listPortfolios => simp only [UnitOfWork.serve, serve, listPortfolios_eq]
  | createTransaction => simp only [UnitOfWork.serve, serve, createTransaction_eq]
  | listTransactions => simp only [UnitOfWork.serve, serve, UnitOfWork.TransactionService.list, ownedLedger_eq]
  | previewImport => simp only [UnitOfWork.serve, serve, preview_eq]
  | commitImport => simp only [UnitOfWork.serve, serve, commit_eq]
  | analyze => simp only [UnitOfWork.serve, serve, analyze_eq]
  | generateInsight => simp only [UnitOfWork.serve, serve, generate_eq]
  | listSnapshots => simp only [UnitOfWork.serve, serve, listSnapshots_eq]

end InMemoryUnitOfWork
end LedgerLens

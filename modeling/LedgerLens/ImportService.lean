import LedgerLens.TransactionService

namespace LedgerLens
open Decimal (Context)

structure TransactionImportIssue where
  code : String
  message : String
  field : Option String := none
  deriving DecidableEq

structure TransactionImportCandidate where
  rowNumber : Nat
  externalId : Option String
  newTransaction : Option NewTransaction
  issues : List TransactionImportIssue := []
  deriving DecidableEq

inductive TransactionImportRowStatus where
  | ready
  | replay
  | invalid
  | created
  | replayed
  | failed
  deriving DecidableEq

structure TransactionImportRowResult where
  rowNumber : Nat
  externalId : Option String
  status : TransactionImportRowStatus
  transaction : Option Transaction
  issues : List TransactionImportIssue := []
  deriving DecidableEq

structure TransactionImportPreview where
  rows : List TransactionImportRowResult
  totalRows : Nat
  readyRows : Nat
  replayRows : Nat
  invalidRows : Nat
  deriving DecidableEq

structure TransactionImportCommit where
  rows : List TransactionImportRowResult
  totalRows : Nat
  createdRows : Nat
  replayedRows : Nat
  failedRows : Nat
  deriving DecidableEq

/-- The parser the service is built with. -/
abbrev TransactionCsvParser := List UInt8 → Except Error (List TransactionImportCandidate)

/-- `_import_row_result` -/
def importRowResult (candidate : TransactionImportCandidate) (status : TransactionImportRowStatus)
    (transaction : Option Transaction) (issue : Option TransactionImportIssue) :
    TransactionImportRowResult where
  rowNumber := candidate.rowNumber
  externalId := candidate.externalId
  status := status
  transaction := transaction
  issues := candidate.issues ++ issue.toList

/-- `_count_import_status` -/
def countImportStatus (rows : List TransactionImportRowResult) (status : TransactionImportRowStatus) : Nat :=
  rows.countP fun row => row.status = status

def idempotencyConflictIssue : TransactionImportIssue where
  code := "idempotency_conflict"
  message := "external_id is already used with different transaction data"
  field := some "external_id"

/-- The transaction a candidate asks for, unless the row has to be rejected unread. -/
def TransactionImportCandidate.readable (candidate : TransactionImportCandidate) : Option NewTransaction :=
  if candidate.issues = [] then candidate.newTransaction else none

/-- What `preview` carries from row to row. -/
structure PreviewState where
  ledger : List Transaction
  transactionsByExternalId : Dict String Transaction

variable {F : Type} [UnicodeDatabase]

namespace TransactionImportService

/-- `_load_owned_ledger` -/
def loadOwnedLedger (ownerId portfolioId : UUID) : Service F (List Transaction) := do
  let portfolio ← PortfolioRepository.get portfolioId
  let _ ← Program.lift (requireOwned ownerId portfolioId portfolio)
  TransactionRepository.listForPortfolio portfolioId

/-- `_assert_owned` -/
def assertOwned (ownerId portfolioId : UUID) : Service F Unit := do
  let portfolio ← PortfolioRepository.get portfolioId
  let _ ← Program.lift (requireOwned ownerId portfolioId portfolio)

/-- One pass of the loop in `preview`; the state is kept unless the row is ready. -/
def previewRow (ctx : Context) (portfolioId : UUID) (state : PreviewState)
    (candidate : TransactionImportCandidate) (fresh : Fresh) :
    Except Error (TransactionImportRowResult × PreviewState) :=
  match candidate.readable with
  | none => .ok (importRowResult candidate .invalid none none, state)
  | some newTransaction =>
    let prepared : Except Error Transaction := do
      let transaction ← buildTransaction portfolioId newTransaction fresh.id fresh.now
      validateTransaction transaction
      return transaction
    match prepared with
    | .error (.invalidTransaction message) =>
      .ok (importRowResult candidate .invalid none (some ⟨"invalid_transaction", message, none⟩), state)
    | .error raised => .error raised
    | .ok transaction =>
      match state.transactionsByExternalId.get? transaction.externalId with
      | some existing =>
        if sameTransactionPayload existing transaction then
          .ok (importRowResult candidate .replay (some existing) none, state)
        else .ok (importRowResult candidate .invalid none (some idempotencyConflictIssue), state)
      | none =>
        match derivePositions ctx (state.ledger ++ [transaction]) with
        | .error (.invalidTransaction message) =>
          .ok (importRowResult candidate .invalid none (some ⟨"invalid_ledger", message, none⟩), state)
        | .error raised => .error raised
        | .ok _ =>
          .ok (importRowResult candidate .ready (some transaction) none,
            { ledger := state.ledger ++ [transaction]
              transactionsByExternalId :=
                state.transactionsByExternalId.set transaction.externalId transaction })

def previewRows (ctx : Context) (portfolioId : UUID) (fresh : Nat → Fresh) (state : PreviewState) :
    List (TransactionImportCandidate × Nat) → Except Error (List TransactionImportRowResult)
  | [] => .ok []
  | (candidate, i) :: rest => do
    let (row, next) ← previewRow ctx portfolioId state candidate (fresh i)
    let rows ← previewRows ctx portfolioId fresh next rest
    return row :: rows

/-- `fresh i` is what the id factory and the clock return while row `i` is read. -/
def preview (ctx : Context) (parser : TransactionCsvParser) (ownerId portfolioId : UUID)
    (csvData : List UInt8) (fresh : Nat → Fresh) : Service F TransactionImportPreview := do
  let ledger ← loadOwnedLedger ownerId portfolioId
  let candidates ← callOutside (.parsed csvData) (parser csvData)
  let state : PreviewState := {
    ledger := ledger
    transactionsByExternalId :=
      ledger.foldl (fun byId transaction => byId.set transaction.externalId transaction) .empty }
  let rows ← Program.lift (previewRows ctx portfolioId fresh state candidates.zipIdx)
  return {
    rows := rows
    totalRows := rows.length
    readyRows := countImportStatus rows .ready
    replayRows := countImportStatus rows .replay
    invalidRows := countImportStatus rows .invalid }

/-- The row reported for the outcome of `TransactionService.create`; the other exceptions go on. -/
def commitOutcome (candidate : TransactionImportCandidate) :
    Except Error TransactionCreation → Except Error TransactionImportRowResult
  | .error (.invalidTransaction message) =>
    .ok (importRowResult candidate .failed none (some ⟨"invalid_transaction", message, none⟩))
  | .error (.transactionIdempotencyConflict _ _) =>
    .ok (importRowResult candidate .failed none (some idempotencyConflictIssue))
  | .error raised => .error raised
  | .ok creation =>
    .ok (importRowResult candidate (if creation.created then .created else .replayed)
      (some creation.transaction) none)

/-- One pass of the loop in `commit`. -/
def commitRow (ctx : Context) (ownerId portfolioId : UUID) (candidate : TransactionImportCandidate)
    (fresh : Fresh) : Service F TransactionImportRowResult :=
  match candidate.readable with
  | none => pure (importRowResult candidate .failed none none)
  | some newTransaction => do
    let outcome ← (TransactionService.create ctx ownerId portfolioId newTransaction fresh).attempt
    Program.lift (commitOutcome candidate outcome)

/-- `fresh i` is what the id factory and the clock return while row `i` is written. -/
def commit (ctx : Context) (parser : TransactionCsvParser) (ownerId portfolioId : UUID)
    (csvData : List UInt8) (fresh : Nat → Fresh) : Service F TransactionImportCommit := do
  assertOwned ownerId portfolioId
  let candidates ← callOutside (.parsed csvData) (parser csvData)
  let rows ← Program.collect
    (fun row : TransactionImportCandidate × Nat => commitRow ctx ownerId portfolioId row.1 (fresh row.2))
    candidates.zipIdx
  return {
    rows := rows
    totalRows := rows.length
    createdRows := countImportStatus rows .created
    replayedRows := countImportStatus rows .replayed
    failedRows := countImportStatus rows .failed }

end TransactionImportService
end LedgerLens

import LedgerLens.ImportRuns
import LedgerLens.CsvImport

namespace LedgerLens
open TransactionImportService (commitOutcome commitRow)
open Decimal (Context)
variable {F : Type}

/-- The report `commit` makes of its rows. -/
def commitReport (rows : List TransactionImportRowResult) : TransactionImportCommit where
  rows := rows
  totalRows := rows.length
  createdRows := countImportStatus rows .created
  replayedRows := countImportStatus rows .replayed
  failedRows := countImportStatus rows .failed

/-- A commit that accounts for every row: one result for each candidate, in order, and the store is the
old one with the transactions of the created rows behind it. -/
structure AccountsForRows (candidates : List TransactionImportCandidate) (before after : Store F)
    (report : TransactionImportCommit) : Prop where
  rows : List.Forall₂ RowReport candidates report.rows
  total : report.totalRows = report.createdRows + report.replayedRows + report.failedRows
  totalRows_eq : report.totalRows = candidates.length
  createdRows_eq : report.createdRows =
    (report.rows.filterMap TransactionImportRowResult.createdTransaction).length
  stored : after = before.extend (report.rows.filterMap TransactionImportRowResult.createdTransaction)

theorem countImportStatus_total {candidates : List TransactionImportCandidate}
    {rows : List TransactionImportRowResult} (reports : List.Forall₂ RowReport candidates rows) :
    rows.length = countImportStatus rows .created + countImportStatus rows .replayed +
      countImportStatus rows .failed := by
  induction reports with
  | nil => rfl
  | cons row _ ih =>
    simp only [countImportStatus, List.countP_cons, List.length_cons] at ih ⊢
    rcases row.status with status | status | status <;> simp [status] <;> omega

theorem countImportStatus_created {candidates : List TransactionImportCandidate}
    {rows : List TransactionImportRowResult} (reports : List.Forall₂ RowReport candidates rows) :
    countImportStatus rows .created =
      (rows.filterMap TransactionImportRowResult.createdTransaction).length := by
  induction reports with
  | nil => rfl
  | @cons candidate row _ _ head _ ih =>
    simp only [countImportStatus, List.countP_cons] at ih ⊢
    by_cases created : row.status = .created
    · obtain ⟨t, stored⟩ := Option.isSome_iff_exists.mp (head.transaction_of_created created)
      simp [TransactionImportRowResult.createdTransaction, created, stored, ih]
    · simp [TransactionImportRowResult.createdTransaction, created, ih]

theorem assertOwned_of_owns {ownerId portfolioId : UUID} {world : World F}
    (owned : world.store.owns ownerId portfolioId) :
    (TransactionImportService.assertOwned ownerId portfolioId).run world = (.ok (), world) := by
  obtain ⟨portfolio, passed⟩ := owned_of_owns owned
  rw [TransactionImportService.assertOwned, Program.bind_ok (PortfolioRepository.get_run world portfolioId), passed]
  rfl

section Commits
variable [UnicodeDatabase]

theorem commit_run (ctx : Context) {parser : TransactionCsvParser} {ownerId portfolioId : UUID}
    {csvData : List UInt8} {candidates : List TransactionImportCandidate} (fresh : Nat → Fresh) {world : World F}
    (owned : world.store.owns ownerId portfolioId) (parsed : parser csvData = .ok candidates) :
    (TransactionImportService.commit ctx parser ownerId portfolioId csvData fresh).run world =
      (commitReport <$> commitRows ctx ownerId portfolioId fresh candidates.zipIdx).run
        (world.record (.parsed csvData)) := by
  have read : (callOutside (.parsed csvData) (parser csvData)).run world =
      (.ok candidates, world.record (.parsed csvData)) := by
    rw [callOutside_run, parsed]
  rw [TransactionImportService.commit, Program.bind_ok (assertOwned_of_owns owned), Program.bind_ok read]
  rfl

/-- For the owner of a sound store, `commit` accounts for every row exactly when every time it reads
fits into UTC. -/
theorem commit_accounts_iff (ctx : Context) {parser : TransactionCsvParser} {ownerId portfolioId : UUID}
    {csvData : List UInt8} {candidates : List TransactionImportCandidate} (fresh : Nat → Fresh) {world : World F}
    (owned : world.store.owns ownerId portfolioId) (sound : SoundStore world.store)
    (parsed : parser csvData = .ok candidates) :
    (∃ report after,
      (TransactionImportService.commit ctx parser ownerId portfolioId csvData fresh).run world = (.ok report, after) ∧
        AccountsForRows candidates world.store after.store report) ↔
      ∀ candidate ∈ candidates, ∀ newTransaction ∈ candidate.readable, Convertible newTransaction.occurredAt := by
  have numbered : candidates.zipIdx.map Prod.fst = candidates := List.zipIdx_map_fst 0 candidates
  rw [commit_run ctx fresh owned parsed, Program.map_run]
  constructor
  · rintro ⟨report, after, run, _⟩ candidate member
    match rows : (commitRows ctx ownerId portfolioId fresh candidates.zipIdx).run (world.record (.parsed csvData)) with
    | (.error raised, final) =>
      rw [rows] at run
      cases congrArg Prod.fst run
    | (.ok reported, final) =>
      rw [← numbered] at member
      obtain ⟨row, listed, rfl⟩ := List.mem_map.mp member
      exact commitRows_convertible ctx ownerId portfolioId fresh
        (world.record (.parsed csvData)) owned sound rows row listed
  · intro convertible
    have each : ∀ row ∈ candidates.zipIdx, ∀ newTransaction ∈ row.1.readable,
        Convertible newTransaction.occurredAt :=
      fun row member => convertible row.1 (numbered ▸ List.mem_map_of_mem member)
    obtain ⟨rows, run, reports⟩ := commitRows_reports ctx ownerId portfolioId fresh
      (world.record (.parsed csvData)) owned sound each
    rw [numbered] at reports
    rw [run]
    refine ⟨commitReport rows, _, rfl, reports, countImportStatus_total reports, reports.length_eq.symm,
      countImportStatus_created reports, rfl⟩

section Reachable
variable [FloatArithmetic F]

theorem runCalls_sound (ctx : Context) (wiring : Wiring) (calls : List (Call F)) :
    SoundStore (runCalls ctx wiring {} calls).store :=
  (runCalls_grows ctx wiring {} calls).sound fun _ => .nil

/-- In every store the services can reach, importing an accepted document into an owned portfolio
accounts for every row exactly when every time read from it fits into UTC. -/
theorem import_accounts_iff (ctx : Context) (parsers : FieldParsers) (methodology : AnalyticsMethodology)
    (calls : List (Call F)) {ownerId portfolioId : UUID} {csvData : List UInt8}
    {candidates : List TransactionImportCandidate} (fresh : Nat → Fresh)
    (owned : (runCalls ctx ⟨parseTransactionCsv parsers, methodology⟩ {} calls).store.owns ownerId portfolioId)
    (accepted : parseTransactionCsv parsers csvData = .ok candidates) :
    (∃ report after,
      (TransactionImportService.commit ctx (parseTransactionCsv parsers) ownerId portfolioId csvData fresh).run
          (runCalls ctx ⟨parseTransactionCsv parsers, methodology⟩ {} calls) = (.ok report, after) ∧
        AccountsForRows candidates (runCalls ctx ⟨parseTransactionCsv parsers, methodology⟩ {} calls).store
          after.store report) ↔
      ∀ candidate ∈ candidates, ∀ newTransaction ∈ candidate.readable, Convertible newTransaction.occurredAt :=
  commit_accounts_iff ctx fresh owned (runCalls_sound ctx _ calls) accepted

end Reachable
end Commits

theorem depositTime_below : 738886 * 86400000000 < DateTime.ceiling := by decide

/-- Field parsers that answer as the validation library does on the texts of the sample documents. -/
def plainParsers : FieldParsers where
  string maxLength
    | none => .error "Input should be a valid string"
    | some text =>
      if Text.strip text = "" then .error "String should have at least 1 character"
      else if maxLength < (Text.strip text).length then .error s!"String should have at most {maxLength} characters"
      else .ok (Text.strip text)
  transactionType
    | some "BUY" => .ok .buy
    | some "SELL" => .ok .sell
    | some "DEPOSIT" => .ok .deposit
    | some "WITHDRAWAL" => .ok .withdrawal
    | _ => .error "Input should be 'BUY', 'SELL', 'DEPOSIT' or 'WITHDRAWAL'"
  datetime
    | some "2024-01-02T00:00:00Z" => .ok (.ofInstant (738886 * 86400000000) depositTime_below)
    | some "0001-01-01T00:00:00+01:00" => .ok .earliest
    | _ => .error "Input should be a valid datetime"
  decimal
    | _, some "10" => .ok (.finite false 10 0)
    | _, some "10.0" => .ok (.finite false 100 (-1))
    | _, some "20" => .ok (.finite false 20 0)
    | _, _ => .error "Input should be a valid decimal"

def asciiBytes (text : String) : List UInt8 := text.toList.map fun c => UInt8.ofNat c.toNat

def depositDocument : String :=
  "external_id,transaction_type,occurred_at,cash_amount\n" ++
  "first,DEPOSIT,2024-01-02T00:00:00Z,10\n"

/-- A second deposit, within the first hour of year 1 and east of Greenwich. -/
def overflowingDocument : String :=
  depositDocument ++ "second,DEPOSIT,0001-01-01T00:00:00+01:00,10\n"

section Overflow

attribute [local instance] Text.asciiDatabase FloatArithmetic.rational

def depositMethodology : AnalyticsMethodology where
  annualRiskFreeRate := .finite false 0 0
  riskFreeRateAsOf := ⟨738886⟩
  riskFreeRateAssumption := "none"

def depositWiring : Wiring := ⟨parseTransactionCsv plainParsers, depositMethodology⟩

/-- Ids and times that count up. -/
def countingFresh (i : Nat) : Fresh where
  id := ⟨100 + i⟩
  now := .ofInstant (738886 * 86400000000 + i % 86400000000) (by unfold DateTime.ceiling DateTime.microsPerDay; omega)
  aware := rfl

def depositCalls : List (Call ℚ) := [⟨⟨1⟩, .createPortfolio "Savings" "EUR" ⟨2⟩⟩]

def depositCandidate : TransactionImportCandidate where
  rowNumber := 2
  externalId := some "first"
  newTransaction := some {
    externalId := "first"
    transactionType := .deposit
    occurredAt := .ofInstant (738886 * 86400000000) depositTime_below
    cashAmount := some (.finite false 10 0) }

theorem deposit_import_accounts : ∃ report after,
    (TransactionImportService.commit .exact (parseTransactionCsv plainParsers) ⟨1⟩ ⟨2⟩ (asciiBytes depositDocument)
      countingFresh).run (runCalls .exact ⟨parseTransactionCsv plainParsers, depositMethodology⟩ {} depositCalls) =
        (.ok report, after) ∧
    AccountsForRows [depositCandidate]
      (runCalls .exact ⟨parseTransactionCsv plainParsers, depositMethodology⟩ {} depositCalls).store
      after.store report := by
  have owned : (runCalls .exact ⟨parseTransactionCsv plainParsers, depositMethodology⟩ {} depositCalls).store.owns
      ⟨1⟩ ⟨2⟩ := by decide +kernel
  have accepted : parseTransactionCsv plainParsers (asciiBytes depositDocument) = .ok [depositCandidate] := by
    decide +kernel
  have fits : ∀ candidate ∈ [depositCandidate], ∀ newTransaction ∈ candidate.readable,
      Convertible newTransaction.occurredAt := by decide +kernel
  exact (import_accounts_iff .exact plainParsers depositMethodology depositCalls countingFresh owned accepted).mpr fits

def overflowingCandidates : List TransactionImportCandidate :=
  [depositCandidate, {
    rowNumber := 3
    externalId := some "second"
    newTransaction := some {
      externalId := "second"
      transactionType := .deposit
      occurredAt := .earliest
      cashAmount := some (.finite false 10 0) } }]

/-- The second deposit makes `commit` raise after the first one has been stored. -/
theorem import_overflow_escapes :
    let world := runCalls .exact depositWiring {} depositCalls
    let run := (TransactionImportService.commit .exact depositWiring.parser ⟨1⟩ ⟨2⟩ (asciiBytes overflowingDocument)
      countingFresh).run world
    world.store.owns ⟨1⟩ ⟨2⟩ ∧ (depositWiring.parser (asciiBytes overflowingDocument)).isOk ∧
      run.1 = .error .overflowError ∧ run.2.store.transactions.map Transaction.externalId = ["first"] ∧
      ¬ ∃ candidates report after, depositWiring.parser (asciiBytes overflowingDocument) = .ok candidates ∧
        run = (.ok report, after) ∧ AccountsForRows candidates world.store after.store report := by
  have owned : (runCalls .exact depositWiring {} depositCalls).store.owns ⟨1⟩ ⟨2⟩ := by decide +kernel
  have parsed : depositWiring.parser (asciiBytes overflowingDocument) = .ok overflowingCandidates := by decide +kernel
  have raised : ((TransactionImportService.commit .exact depositWiring.parser ⟨1⟩ ⟨2⟩ (asciiBytes overflowingDocument)
      countingFresh).run (runCalls .exact depositWiring {} depositCalls)).1 = .error .overflowError := by
    rw [commit_run .exact countingFresh owned parsed]
    decide +kernel
  have stored : ((TransactionImportService.commit .exact depositWiring.parser ⟨1⟩ ⟨2⟩ (asciiBytes overflowingDocument)
      countingFresh).run (runCalls .exact depositWiring {} depositCalls)).2.store.transactions.map
        Transaction.externalId = ["first"] := by
    rw [commit_run .exact countingFresh owned parsed]
    decide +kernel
  refine ⟨owned, by rw [parsed]; rfl, raised, stored, ?_⟩
  rintro ⟨candidates, report, after, _, run, _⟩
  rw [run] at raised
  cases raised

end Overflow

end LedgerLens

import LedgerLens.Retries

namespace LedgerLens
open TransactionImportService (commitOutcome commitRow)
open Decimal (Context)
variable {F : Type} [UnicodeDatabase]

/-- A commit that returns has passed the ownership check and read its document. -/
theorem commit_eq_ok {ctx : Context} {parser : TransactionCsvParser} {ownerId portfolioId : UUID}
    {csvData : List UInt8} {fresh : Nat → Fresh} {world after : World F} {report : TransactionImportCommit}
    (run : (TransactionImportService.commit ctx parser ownerId portfolioId csvData fresh).run world =
      (.ok report, after)) :
    world.store.owns ownerId portfolioId ∧ ∃ candidates rows, parser csvData = .ok candidates ∧
      (commitRows ctx ownerId portfolioId fresh candidates.zipIdx).run (world.record (.parsed csvData)) =
        (.ok rows, after) ∧ report = commitReport rows := by
  have owned : world.store.owns ownerId portfolioId := by
    by_contra foreign
    rw [TransactionImportService.commit, Program.bind_error (assertOwned_foreign foreign)] at run
    cases congrArg Prod.fst run
  cases parsed : parser csvData with
  | error raised =>
    obtain ⟨_, checked, first, rest⟩ := Program.bind_eq_ok.mp run
    obtain ⟨candidates, next, read, _⟩ := Program.bind_eq_ok.mp rest
    rw [callOutside_run, parsed] at read
    cases congrArg Prod.fst read
  | ok candidates =>
    rw [commit_run ctx fresh owned parsed, Program.map_run] at run
    refine ⟨owned, candidates, ?_⟩
    rcases rows : (commitRows ctx ownerId portfolioId fresh candidates.zipIdx).run (world.record (.parsed csvData)) with
      ⟨raised | reported, final⟩
    · rw [rows] at run
      cases congrArg Prod.fst run
    · rw [rows] at run
      cases congrArg Prod.snd run
      exact ⟨reported, rfl, rfl, (Except.ok.inj (congrArg Prod.fst run)).symm⟩

/-- The response says that the transaction was created or replayed. -/
def Response.Reports (response : Response F) (t : Transaction) : Prop :=
  match response with
  | .creation made => made.transaction = t
  | .commit rows => ∃ row ∈ rows.rows, row.transaction = some t
  | _ => False

/-- The rows that an import gets through, up to one that makes it raise. -/
def importedRows (ctx : Context) (parser : TransactionCsvParser) (ownerId portfolioId : UUID) (csvData : List UInt8)
    (fresh : Nat → Fresh) (world : World F) : List TransactionImportRowResult :=
  match ((TransactionImportService.assertOwned ownerId portfolioId).run world).1, parser csvData with
  | .ok _, .ok candidates =>
    processedRows ctx ownerId portfolioId fresh candidates.zipIdx (world.record (.parsed csvData))
  | _, _ => []

/-- The transactions that a call finds created or replayed, also in an import that raises at a later row. -/
def reportedTransactions (ctx : Context) (wiring : Wiring) (call : Call F) (world : World F) : List Transaction :=
  match call.request with
  | .createTransaction portfolioId newTransaction fresh =>
    match ((TransactionService.create ctx call.ownerId portfolioId newTransaction fresh).run world).1 with
    | .ok creation => [creation.transaction]
    | .error _ => []
  | .commitImport portfolioId csvData fresh =>
    (importedRows ctx wiring.parser call.ownerId portfolioId csvData fresh world).filterMap
      TransactionImportRowResult.transaction
  | _ => []

/-- A row asks for a stored transaction again, in whatever spelling. -/
def TransactionImportCandidate.Repeats (candidate : TransactionImportCandidate) (t : Transaction) : Prop :=
  ∃ newTransaction ∈ candidate.readable, Text.strip newTransaction.externalId = t.externalId ∧
    SamePayload newTransaction t

/-- How a later request has to be answered once a transaction is stored. An import that raises gives none of its
rows an answer. -/
def AnswersRetry (parser : TransactionCsvParser) (t : Transaction) (request : Request F)
    (answer : Except Error (Response F)) : Prop :=
  match request with
  | .createTransaction _ newTransaction _ =>
    Text.strip newTransaction.externalId = t.externalId →
      (SamePayload newTransaction t → answer = .ok (.creation ⟨t, false⟩)) ∧
        (¬ SamePayload newTransaction t → ∃ raised, answer = .error raised)
  | .commitImport _ csvData _ =>
    ∀ candidates, parser csvData = .ok candidates →
      (∃ report, answer = .ok (.commit report) ∧ List.Forall₂ (RowRetried t) candidates report.rows) ∨
        (∃ raised, answer = .error raised) ∧ ∀ candidate ∈ candidates, ¬ candidate.Repeats t
  | _ => True

/-- An import with a row that repeats the transaction has only times with a UTC form. -/
def CompletesRetry (parser : TransactionCsvParser) (t : Transaction) (request : Request F) : Prop :=
  match request with
  | .commitImport _ csvData _ =>
    ∀ candidates, parser csvData = .ok candidates → (∃ candidate ∈ candidates, candidate.Repeats t) →
      ∀ candidate ∈ candidates, ∀ newTransaction ∈ candidate.readable, Convertible newTransaction.occurredAt
  | _ => True

/-- What an import does with the rows that it gets through, once a transaction is stored. -/
def RetriesRows (ctx : Context) (parser : TransactionCsvParser) (t : Transaction) (call : Call F) (world : World F) :
    Prop :=
  match call.request with
  | .commitImport portfolioId csvData fresh =>
    ∀ candidates, parser csvData = .ok candidates →
      ∀ pair ∈ candidates.zip (importedRows ctx parser call.ownerId portfolioId csvData fresh world),
        RowRetried t pair.1 pair.2
  | _ => True

section Imports
variable {ctx : Context} {parser : TransactionCsvParser} {ownerId portfolioId : UUID} {csvData : List UInt8}
variable {fresh : Nat → Fresh} {world after : World F} {candidates : List TransactionImportCandidate}

theorem importedRows_of_owned (owned : world.store.owns ownerId portfolioId)
    (parsed : parser csvData = .ok candidates) :
    importedRows ctx parser ownerId portfolioId csvData fresh world =
      processedRows ctx ownerId portfolioId fresh candidates.zipIdx (world.record (.parsed csvData)) := by
  rw [importedRows, assertOwned_of_owns owned, parsed]

theorem importedRows_foreign (foreign : ¬ world.store.owns ownerId portfolioId) :
    importedRows ctx parser ownerId portfolioId csvData fresh world = [] := by
  rw [importedRows, assertOwned_foreign foreign]

/-- A report lists the rows that the import got through, and these are all. -/
theorem commit_rows {report : TransactionImportCommit}
    (run : (TransactionImportService.commit ctx parser ownerId portfolioId csvData fresh).run world =
      (.ok report, after)) :
    report.rows = importedRows ctx parser ownerId portfolioId csvData fresh world := by
  obtain ⟨owned, candidates, rows, parsed, looped, rfl⟩ := commit_eq_ok run
  rw [importedRows_of_owned owned parsed, processedRows, Program.collected_of_collect looped]
  rfl

/-- A commit that returns has met convertible times only. -/
theorem commit_convertible {report : TransactionImportCommit} (reached : ReachedStore world.store)
    (run : (TransactionImportService.commit ctx parser ownerId portfolioId csvData fresh).run world =
      (.ok report, after)) (parsed : parser csvData = .ok candidates) :
    ∀ candidate ∈ candidates, ∀ newTransaction ∈ candidate.readable, Convertible newTransaction.occurredAt := by
  obtain ⟨owned, others, rows, parsed', looped, rfl⟩ := commit_eq_ok run
  cases Except.ok.inj (parsed.symm.trans parsed')
  have convertible := commitRows_convertible ctx ownerId portfolioId fresh (world.record _) owned reached.sound looped
  intro candidate member
  rw [← List.zipIdx_map_fst 0 candidates] at member
  obtain ⟨row, listed, rfl⟩ := List.mem_map.mp member
  exact convertible row listed

/-- Rows of one document retry what the rows before them report. -/
theorem importedRows_pairwise (reached : ReachedStore world.store) (parsed : parser csvData = .ok candidates) :
    (candidates.zip (importedRows ctx parser ownerId portfolioId csvData fresh world)).Pairwise
      fun before later => ∀ t, before.2.transaction = some t → RowRetried t later.1 later.2 := by
  by_cases owned : world.store.owns ownerId portfolioId
  · have pairs := (processedRows_retried ctx fresh candidates.zipIdx (world.record (.parsed csvData)) reached
      owned).2.1
    rw [List.zipIdx_map_fst] at pairs
    rwa [importedRows_of_owned owned parsed]
  · rw [importedRows_foreign owned, List.zip_nil_right]
    exact .nil

end Imports

section Serving
variable [FloatArithmetic F] {ctx : Context} {wiring : Wiring} {call : Call F} {portfolioId : UUID}
variable {world after : World F} {t : Transaction}

omit [UnicodeDatabase] [FloatArithmetic F] in
theorem map_eq_ok {α : Type} {x : Service F α} {f : α → Response F} {response : Response F}
    (run : (f <$> x).run world = (.ok response, after)) : ∃ a, x.run world = (.ok a, after) ∧ response = f a := by
  rw [Program.map_run] at run
  match result : x.run world with
  | (.error raised, final) =>
    rw [result] at run
    cases congrArg Prod.fst run
  | (.ok a, final) =>
    rw [result] at run
    cases congrArg Prod.snd run
    exact ⟨a, rfl, (Except.ok.inj (congrArg Prod.fst run)).symm⟩

/-- What a response reports is among what its call has reported. -/
theorem serve_reports {response : Response F} (run : (serve ctx wiring call).run world = (.ok response, after))
    (reports : response.Reports t) : t ∈ reportedTransactions ctx wiring call world := by
  obtain ⟨ownerId, request⟩ := call
  cases request with
  | createTransaction own newTransaction fresh =>
    obtain ⟨made, created, rfl⟩ := map_eq_ok run
    simp only [reportedTransactions, created]
    exact List.mem_singleton.mpr (reports : made.transaction = t).symm
  | commitImport own csvData fresh =>
    obtain ⟨report, committed, rfl⟩ := map_eq_ok run
    obtain ⟨row, listed, stored⟩ := reports
    rw [commit_rows committed] at listed
    exact List.mem_filterMap.mpr ⟨row, listed, stored⟩
  | _ =>
    obtain ⟨_, _, rfl⟩ := map_eq_ok run
    cases reports

/-- What a call reports is stored, in a portfolio of the caller. -/
theorem serve_reported (reached : ReachedStore world.store) (about : call.request.portfolioId = some portfolioId)
    (reported : t ∈ reportedTransactions ctx wiring call world) :
    t ∈ ((serve ctx wiring call).run world).2.store.rows portfolioId ∧ world.store.owns call.ownerId portfolioId := by
  obtain ⟨ownerId, request⟩ := call
  cases request with
  | createTransaction own newTransaction fresh =>
    cases about
    simp only [reportedTransactions, create_run] at reported
    simp only [serve, Program.map_run, create_run, World.update_store]
    cases decided : admission ctx ownerId portfolioId newTransaction fresh world.store with
    | error raised =>
      rw [decided] at reported
      cases reported
    | ok made =>
      rw [decided] at reported
      cases List.mem_singleton.mp reported
      obtain ⟨portfolio, other, located, owner, _⟩ := admit_eq_ok.mp decided
      exact ⟨admit_stored decided, owns_of_requireOwned (requireOwned_eq_ok.mpr ⟨located, owner⟩)⟩
  | commitImport own csvData fresh =>
    cases about
    simp only [reportedTransactions] at reported
    obtain ⟨row, listed, stored⟩ := List.mem_filterMap.mp reported
    have owned : world.store.owns ownerId portfolioId := by
      by_contra foreign
      rw [importedRows_foreign foreign] at listed
      cases listed
    refine ⟨?_, owned⟩
    cases parsed : wiring.parser csvData with
    | error raised =>
      rw [importedRows, assertOwned_of_owns owned, parsed] at listed
      cases listed
    | ok candidates =>
      rw [importedRows_of_owned owned parsed] at listed
      simp only [serve, Program.map_run, commit_run ctx fresh owned parsed]
      exact (processedRows_retried ctx fresh candidates.zipIdx (world.record (.parsed csvData)) reached owned).2.2 row
        listed t stored
  | createPortfolio name baseCurrency id => cases about
  | listPortfolios limit offset => cases about
  | _ => cases reported

omit [FloatArithmetic F] in
/-- Behind the moment a transaction was stored, an import retries it in every row that it gets through. -/
theorem serve_retries_rows (reached : ReachedStore world.store) (about : call.request.portfolioId = some portfolioId)
    (owned : world.store.owns call.ownerId portfolioId) (stored : t ∈ world.store.rows portfolioId) :
    RetriesRows ctx wiring.parser t call world := by
  obtain ⟨ownerId, request⟩ := call
  cases request with
  | commitImport own csvData fresh =>
    cases about
    intro candidates parsed pair listed
    rw [importedRows_of_owned owned parsed] at listed
    have retried := (processedRows_retried ctx fresh candidates.zipIdx (world.record (.parsed csvData)) reached
      owned).1 t stored pair
    rw [List.zipIdx_map_fst] at retried
    exact retried listed
  | _ => trivial

/-- Every call behind the moment a transaction was stored answers retries of it, unless an import repeats it in a
document with a time that has no UTC form. -/
theorem serve_retried_iff (reached : ReachedStore world.store)
    (about : call.request.portfolioId = some portfolioId) (owned : world.store.owns call.ownerId portfolioId)
    (stored : t ∈ world.store.rows portfolioId) :
    AnswersRetry wiring.parser t call.request ((serve ctx wiring call).run world).1 ↔
      CompletesRetry wiring.parser t call.request := by
  have rows : RetriesRows ctx wiring.parser t call world := serve_retries_rows reached about owned stored
  obtain ⟨ownerId, request⟩ := call
  cases request with
  | createTransaction own newTransaction fresh =>
    cases about
    refine iff_of_true (fun carries => ?_) trivial
    have retried := admit_retried ctx fresh reached owned stored carries
    simp only [serve, Program.map_run, create_run]
    refine ⟨fun same => ?_, fun different => ?_⟩
    · rw [retried.replayed same]
      rfl
    · obtain ⟨raised, failed⟩ := retried.refused different
      exact ⟨raised, by rw [failed]; rfl⟩
  | commitImport own csvData fresh =>
    cases about
    refine forall_congr' fun candidates => forall_congr' fun parsed => ?_
    have complete := commit_accounts_iff ctx fresh owned reached.sound parsed
    constructor
    · rintro (⟨report, answered, _⟩ | ⟨_, unrepeated⟩) ⟨candidate, listed, repeats⟩
      · obtain ⟨_, committed, same⟩ := map_eq_ok (Prod.ext answered rfl)
        cases same
        exact commit_convertible reached committed parsed
      · exact absurd repeats (unrepeated candidate listed)
    · intro completes
      rcases run : (TransactionImportService.commit ctx wiring.parser ownerId portfolioId csvData fresh).run world with
        ⟨raised | report, after⟩
      · refine .inr ⟨⟨raised, by simp only [serve, Program.map_run, run]; rfl⟩, fun candidate listed repeats => ?_⟩
        obtain ⟨report, final, returned, _⟩ := complete.mpr (completes ⟨candidate, listed, repeats⟩)
        rw [run] at returned
        cases congrArg Prod.fst returned
      · obtain ⟨_, final, returned, accounts⟩ := complete.mpr (commit_convertible reached run parsed)
        cases run.symm.trans returned
        refine .inl ⟨report, by simp only [serve, Program.map_run, run]; rfl, ?_⟩
        refine List.forall₂_iff_zip.mpr ⟨accounts.rows.length_eq, fun member => ?_⟩
        rw [commit_rows run] at member
        exact rows candidates parsed _ member
  | _ => exact iff_of_true trivial trivial

end Serving
end LedgerLens

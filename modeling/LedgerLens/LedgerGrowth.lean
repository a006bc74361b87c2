import Mathlib.Logic.Relation
import LedgerLens.StoreEffects
import LedgerLens.RunningPositions
import LedgerLens.NormalizedTransactions

namespace LedgerLens
open Decimal (Context)
open Relation (ReflTransGen)
open RunningSum (StaysNonneg)
variable {F : Type} [UnicodeDatabase]

/-- What holds of a transaction at the moment it is written behind the rows already stored. -/
structure Accepts (ctx : Context) (rows : List Transaction) (t : Transaction) : Prop where
  built : t.Built
  valid : t.Valid
  fresh : ∀ other ∈ rowsOf t.portfolioId rows, other.externalId ≠ t.externalId
  replayed : ∃ positions, derivePositions ctx (ledgerSorted (rowsOf t.portfolioId rows) ++ [t]) = .ok positions

/-- One write to the stored rows. -/
def Appends (ctx : Context) (rows next : List Transaction) : Prop :=
  ∃ t, Accepts ctx rows t ∧ next = rows ++ [t]

/-- The stored rows of a world and of a later one. -/
def Grows (ctx : Context) (before after : World F) : Prop :=
  ReflTransGen (Appends ctx) before.store.transactions after.store.transactions

instance (ctx : Context) : Std.Refl (Grows (F := F) ctx) := ⟨fun _ => .refl⟩

instance (ctx : Context) : IsTrans (World F) (Grows ctx) := ⟨fun _ _ _ first second => first.trans second⟩

theorem ReadsStore.grows {α : Type} {x : Service F α} (reads : ReadsStore x) {ctx : Context} :
    Program.Preserves (Grows ctx) x := by
  refine Program.Preserves.mono reads fun before after same => ?_
  unfold Grows
  rw [same]

omit [UnicodeDatabase] in
theorem Store.byExternalId_eq_none {store : Store F} {portfolioId : UUID} {externalId : String} :
    store.byExternalId portfolioId externalId = none ↔
      ∀ t ∈ rowsOf portfolioId store.transactions, t.externalId ≠ externalId := by
  simp only [byExternalId, rowsOf, List.find?_eq_none, List.mem_filter, decide_eq_true_eq, and_imp, not_and]

/-- What is decided to be created is accepted by the rows in the store. -/
theorem Accepts.of_admit {ctx : Context} {ownerId portfolioId : UUID} {newTransaction : NewTransaction}
    {fresh : Fresh} {store : Store F} {t : Transaction}
    (decided : admission ctx ownerId portfolioId newTransaction fresh store = .ok ⟨t, true⟩) :
    Accepts ctx store.transactions t ∧ t.portfolioId = portfolioId := by
  have creates := admit_created decided
  have own := (BuiltFrom.of_eq_ok creates.built).portfolioId_eq
  subst own
  have absent := Store.byExternalId_eq_none.mp creates.absent
  exact ⟨⟨⟨newTransaction, fresh, creates.built⟩, creates.valid, absent, creates.replayed⟩, rfl⟩

theorem TransactionService.create_grows (ctx : Context) (ownerId portfolioId : UUID)
    (newTransaction : NewTransaction) (fresh : Fresh) :
    Program.Preserves (Grows (F := F) ctx)
      (create ctx ownerId portfolioId newTransaction fresh) := by
  refine ⟨fun world => ?_⟩
  rw [create_run]
  match decided : admission ctx ownerId portfolioId newTransaction fresh world.store with
  | .error raised => exact .refl
  | .ok ⟨t, false⟩ => exact .refl
  | .ok ⟨t, true⟩ => exact .single ⟨t, (Accepts.of_admit decided).1, rfl⟩

theorem TransactionImportService.commitRow_grows (ctx : Context) (ownerId portfolioId : UUID)
    (candidate : TransactionImportCandidate) (fresh : Fresh) :
    Program.Preserves (Grows (F := F) ctx)
      (commitRow ctx ownerId portfolioId candidate fresh) := by
  unfold commitRow
  cases candidate.readable with
  | none => exact .pure _
  | some newTransaction =>
    exact .bind (.attempt (TransactionService.create_grows ctx ownerId portfolioId newTransaction fresh)) fun _ =>
      .lift _

theorem TransactionImportService.commit_grows (ctx : Context) (parser : TransactionCsvParser)
    (ownerId portfolioId : UUID) (csvData : List UInt8) (fresh : Nat → Fresh) :
    Program.Preserves (Grows (F := F) ctx)
      (commit ctx parser ownerId portfolioId csvData fresh) :=
  .bind (.bind (.read _) fun _ => .bind (.lift _) fun _ => .pure _) fun _ =>
    .bind (ReadsStore.grows (callOutside_reads _ _)) fun _ =>
      .bind (.collect (fun row : TransactionImportCandidate × Nat =>
        commitRow_grows ctx ownerId portfolioId row.1 (fresh row.2)) _) fun _ => .pure _

theorem PortfolioService.create_grows (ctx : Context) (ownerId : UUID) (name baseCurrency : String) (id : UUID) :
    Program.Preserves (Grows (F := F) ctx)
      (create ownerId name baseCurrency id) := by
  refine .bind (.bind (.read _) fun existing => ?_) fun _ => .pure _
  split
  · exact .raise _
  · refine ⟨fun world => ?_⟩
    have kept : (world.store.addPortfolio ⟨id, ownerId, name, Text.upper (Text.strip baseCurrency), []⟩).transactions =
      world.store.transactions := List.append_nil _
    change ReflTransGen _ _ (world.store.addPortfolio _).transactions
    rw [kept]

variable [FloatArithmetic F]

theorem PortfolioInsightService.generate_grows (ctx : Context) (methodology : AnalyticsMethodology)
    (ownerId portfolioId : UUID) (startDate endDate : Date) (marketData : MarketData)
    (generator : Option (InsightGenerator F)) (fresh : Fresh) :
    Program.Preserves (Grows (F := F) ctx)
      (generate ctx methodology ownerId portfolioId startDate endDate marketData generator fresh) :=
  .bind (PortfolioAnalyticsService.analyze_reads ..).grows fun _ =>
    .bind (narrate_reads ..).grows fun _ => .bind ⟨fun _ => .refl⟩ fun _ => .pure _

/-- No call of any service does anything to the stored rows but append accepted transactions. -/
theorem serve_grows (ctx : Context) (wiring : Wiring) (call : Call F) :
    Program.Preserves (Grows (F := F) ctx)
      (serve ctx wiring call) := by
  obtain ⟨ownerId, request⟩ := call
  cases request with
  | createPortfolio name baseCurrency id => exact .map (PortfolioService.create_grows ..) _
  | getPortfolio portfolioId => exact .map (PortfolioService.get_reads ..).grows _
  | listPortfolios limit offset => exact .map (PortfolioService.list_reads ..).grows _
  | createTransaction portfolioId newTransaction fresh => exact .map (TransactionService.create_grows ..) _
  | listTransactions portfolioId => exact .map (TransactionService.list_reads ..).grows _
  | previewImport portfolioId csvData fresh => exact .map (TransactionImportService.preview_reads ..).grows _
  | commitImport portfolioId csvData fresh => exact .map (TransactionImportService.commit_grows ..) _
  | analyze portfolioId startDate endDate marketData =>
    exact .map (PortfolioAnalyticsService.analyze_reads ..).grows _
  | generateInsight portfolioId startDate endDate marketData generator fresh =>
    exact .map (PortfolioInsightService.generate_grows ..) _
  | listSnapshots portfolioId limit offset =>
    exact .map (PortfolioInsightService.listSnapshots_reads ..).grows _

theorem runCalls_grows (ctx : Context) (wiring : Wiring) (world : World F) (calls : List (Call F)) :
    Grows ctx world (runCalls ctx wiring world calls) := by
  induction calls generalizing world with
  | nil => exact .refl
  | cons call rest ih => exact ((serve_grows ctx wiring call).step world).trans (ih _)

end LedgerLens

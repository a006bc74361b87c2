import LedgerLens.OwnerView

namespace LedgerLens
open Decimal (Context)
variable {F : Type}

/-- Between the two worlds no row of another portfolio was written, and no portfolio. -/
structure OnlyTouches (portfolioId : UUID) (before after : World F) : Prop where
  portfolios : after.store.portfolios = before.store.portfolios
  transactions : ∀ keep : UUID → Bool, keep portfolioId = false →
    (after.store.transactions.filter fun t => keep t.portfolioId) =
      before.store.transactions.filter fun t => keep t.portfolioId
  analysisSnapshots : ∀ keep : UUID → Bool, keep portfolioId = false →
    (after.store.analysisSnapshots.filter fun snapshot => keep snapshot.portfolioId) =
      before.store.analysisSnapshots.filter fun snapshot => keep snapshot.portfolioId

namespace OnlyTouches
variable {portfolioId : UUID} {before after : World F}

instance : Std.Refl (OnlyTouches (F := F) portfolioId) := ⟨fun _ => ⟨rfl, fun _ _ => rfl, fun _ _ => rfl⟩⟩

instance : IsTrans (World F) (OnlyTouches portfolioId) where
  trans _ _ _ first second :=
    ⟨second.portfolios.trans first.portfolios,
      fun keep other => (second.transactions keep other).trans (first.transactions keep other),
      fun keep other => (second.analysisSnapshots keep other).trans (first.analysisSnapshots keep other)⟩

theorem owns (touched : OnlyTouches portfolioId before after) (user other : UUID) :
    after.store.owns user other = before.store.owns user other := by
  unfold Store.owns
  rw [touched.portfolios]

/-- A user who does not own the portfolio sees nothing of it. -/
theorem viewOf (touched : OnlyTouches portfolioId before after) {user : UUID}
    (foreign : before.store.owns user portfolioId = false) :
    after.store.viewOf user = before.store.viewOf user := by
  have owns := fun other => touched.owns user other
  simp only [Store.viewOf, owns, touched.portfolios, touched.transactions (before.store.owns user) foreign,
    touched.analysisSnapshots (before.store.owns user) foreign]

end OnlyTouches

theorem ReadsStore.touches {α : Type} {x : Service F α} (reads : ReadsStore x) {portfolioId : UUID} :
    Program.Preserves (OnlyTouches portfolioId) x := by
  refine Program.Preserves.mono reads fun before after same => ?_
  constructor <;> rw [same] <;> exact fun _ _ => rfl

section Touched
variable (ctx : Context) (methodology : AnalyticsMethodology) (ownerId portfolioId : UUID)
variable [UnicodeDatabase]

theorem TransactionService.create_touches (newTransaction : NewTransaction) (fresh : Fresh) :
    Program.Preserves (OnlyTouches (F := F) portfolioId)
      (create ctx ownerId portfolioId newTransaction fresh) := by
  refine ⟨fun world => ?_⟩
  rcases appendsOneOrNothing ctx ownerId portfolioId newTransaction fresh world with
    ⟨t, _, own, after, _⟩ | ⟨_, after⟩
  · rw [after]
    refine ⟨rfl, fun keep other => ?_, fun _ _ => rfl⟩
    simp [Store.addTransaction, List.filter_append, own, other]
  · rw [after]
    exact Std.Refl.refl _

theorem TransactionImportService.commitRow_touches (candidate : TransactionImportCandidate) (fresh : Fresh) :
    Program.Preserves (OnlyTouches (F := F) portfolioId) (commitRow ctx ownerId portfolioId candidate fresh) := by
  unfold commitRow
  cases candidate.readable with
  | none => exact .pure _
  | some newTransaction =>
    exact .bind (.attempt (TransactionService.create_touches ctx ownerId portfolioId newTransaction fresh))
      fun _ => .lift _

theorem TransactionImportService.commit_touches (parser : TransactionCsvParser) (csvData : List UInt8)
    (fresh : Nat → Fresh) :
    Program.Preserves (OnlyTouches (F := F) portfolioId)
      (commit ctx parser ownerId portfolioId csvData fresh) :=
  .bind (.bind (.read _) fun _ => .bind (.lift _) fun _ => .pure _) fun _ =>
    .bind (ReadsStore.touches (callOutside_reads _ _)) fun _ =>
      .bind (.collect (fun row : TransactionImportCandidate × Nat =>
        commitRow_touches ctx ownerId portfolioId row.1 (fresh row.2)) _) fun _ => .pure _

variable [FloatArithmetic F]

theorem PortfolioInsightService.generate_touches (startDate endDate : Date) (marketData : MarketData)
    (generator : Option (InsightGenerator F)) (fresh : Fresh) :
    Program.Preserves (OnlyTouches (F := F) portfolioId)
      (generate ctx methodology ownerId portfolioId startDate endDate marketData generator fresh) := by
  refine .bind (PortfolioAnalyticsService.analyze_reads ..).touches fun analytics =>
    .bind (narrate_reads ..).touches fun insight => .bind ⟨fun world => ?_⟩ fun _ => .pure _
  refine ⟨rfl, fun _ _ => rfl, fun keep other => ?_⟩
  simp [AnalysisSnapshotRepository.add, Store.addSnapshot, List.filter_append, other]

end Touched
end LedgerLens

import LedgerLens.OwnerView

namespace LedgerLens
open Decimal (Context)
variable {F : Type}

section Blind
variable (ctx : Context) (methodology : AnalyticsMethodology) (ownerId portfolioId : UUID)

theorem blind_callOutside {α : Type} (call : OutsideCall F) (answer : Except Error α) :
    Blind ownerId (callOutside call answer) :=
  ⟨fun _ _ _ => rfl, fun _ _ alike => alike.record call⟩

theorem blindOn_listForPortfolio :
    BlindOn (F := F) ownerId portfolioId (TransactionRepository.listForPortfolio portfolioId) :=
  .read fun _ _ alike => alike.ledger

theorem PortfolioService.get_blind : Blind (F := F) ownerId (get ownerId portfolioId) :=
  blind_requireOwned ownerId portfolioId

theorem PortfolioService.list_blind (limit offset : Int) :
    Blind (F := F) ownerId (list ownerId limit offset) := by
  have listed : ∀ store : Store F, ((store.portfolios.entries.map Prod.snd).filter
      fun portfolio => portfolio.ownerId = ownerId) = (store.viewOf ownerId).portfolios.map Prod.snd := by
    intro store
    rw [List.filter_map]
    rfl
  refine .bind (.read fun left right alike => ?_) fun _ => .bind (.read fun left right alike => ?_) fun _ => .pure _
  · simp only [List.filter_reverse, listed, alike.view]
  · simp only [listed, alike.view]

theorem TransactionService.list_blind : Blind (F := F) ownerId (list ownerId portfolioId) :=
  .owned fun _ => blindOn_listForPortfolio ownerId portfolioId

theorem PortfolioInsightService.listSnapshots_blind (limit offset : Int) :
    Blind (F := F) ownerId (listSnapshots ownerId portfolioId limit offset) := by
  refine .owned fun _ => .bind (.read fun left right alike => ?_) fun _ =>
    .bind (.read fun left right alike => ?_) fun _ => .pure _
  · simp only [snapshots_of_view alike.1.view alike.2]
  · simp only [snapshots_of_view alike.1.view alike.2]

variable [UnicodeDatabase]

theorem TransactionService.create_blind (newTransaction : NewTransaction) (fresh : Fresh) :
    Blind (F := F) ownerId (create ctx ownerId portfolioId newTransaction fresh) := by
  refine .owned fun _ => .bind (.lift _) fun transaction => .bind (.lift _) fun _ =>
    .bind (.read fun _ _ alike => alike.byExternalId _) fun existing => ?_
  cases existing with
  | some existing =>
    by_cases same : sameTransactionPayload existing transaction
    · simp only [same, if_true]
      exact .pure _
    · simp only [same, if_neg Bool.false_ne_true]
      exact .raise _
  | none =>
    refine .bind (blindOn_listForPortfolio ownerId portfolioId) fun ledger => .bind (.lift _) fun _ =>
      .bind (.modify fun left right alike => ?_) fun _ => .pure _
    exact ⟨alike.1.addTransaction transaction, alike.2⟩

theorem TransactionImportService.preview_blind (parser : TransactionCsvParser) (csvData : List UInt8)
    (fresh : Nat → Fresh) : Blind (F := F) ownerId (preview ctx parser ownerId portfolioId csvData fresh) :=
  .bind (Blind.owned fun _ => blindOn_listForPortfolio ownerId portfolioId) fun _ =>
    .bind (blind_callOutside ..) fun _ => .bind (.lift _) fun _ => .pure _

theorem TransactionImportService.commitRow_blind (candidate : TransactionImportCandidate) (fresh : Fresh) :
    Blind (F := F) ownerId (commitRow ctx ownerId portfolioId candidate fresh) := by
  unfold commitRow
  cases candidate.readable with
  | none => exact .pure _
  | some newTransaction =>
    exact .bind (.attempt (TransactionService.create_blind ctx ownerId portfolioId newTransaction fresh)) fun _ =>
      .lift _

theorem TransactionImportService.commit_blind (parser : TransactionCsvParser) (csvData : List UInt8)
    (fresh : Nat → Fresh) : Blind (F := F) ownerId (commit ctx parser ownerId portfolioId csvData fresh) :=
  .bind (Blind.owned fun _ => .pure _) fun _ => .bind (blind_callOutside ..) fun _ =>
    .bind (.collect (fun row : TransactionImportCandidate × Nat =>
      commitRow_blind ctx ownerId portfolioId row.1 (fresh row.2)) _) fun _ => .pure _

theorem PortfolioInsightService.narrate_blind (generator : Option (InsightGenerator F)) (input : InsightInput F)
    (insight : PortfolioInsight) : Blind ownerId (narrate generator input insight) := by
  cases generator with
  | none => exact .pure _
  | some generator =>
    refine .bind (.attempt (.bind (blind_callOutside ..) fun _ => .bind (.lift _) fun _ => .pure _)) fun attempted => ?_
    cases attempted with
    | error raised => exact .pure _
    | ok generated => exact .pure _

variable [FloatArithmetic F]

theorem PortfolioAnalyticsService.analyze_blind (startDate endDate : Date) (marketData : MarketData) :
    Blind (F := F) ownerId (analyze ctx methodology ownerId portfolioId startDate endDate marketData) := by
  refine .owned fun _ => .bind (blindOn_listForPortfolio ownerId portfolioId) fun transactions => ?_
  split
  · exact .raise _
  · refine .bind (.lift _) fun symbols => ?_
    split
    · exact .raise _
    · refine .bind (.bind (.modify fun left right alike => ?_) fun _ => .lift _) fun _ =>
        .bind (.lift _) fun _ => .lift _
      exact ⟨⟨alike.1.view, congrArg (· ++ _) alike.1.calls⟩, alike.2⟩

theorem PortfolioInsightService.generate_blind (startDate endDate : Date) (marketData : MarketData)
    (generator : Option (InsightGenerator F)) (fresh : Fresh) :
    Blind (F := F) ownerId
      (generate ctx methodology ownerId portfolioId startDate endDate marketData generator fresh) :=
  .bind (PortfolioAnalyticsService.analyze_blind ..) fun _ => .bind (narrate_blind ..) fun _ =>
    .bind (.modify fun _ _ alike => alike.addSnapshot _) fun _ => .pure _

end Blind

end LedgerLens

import LedgerLens.Requests
import LedgerLens.Admission

namespace LedgerLens
open Decimal (Context)
variable {F α : Type}

/-- The store is where it was; outside calls may have been made. -/
def SameStore (before after : World F) : Prop := after.store = before.store

instance : Std.Refl (SameStore (F := F)) := ⟨fun _ => rfl⟩

instance : IsTrans (World F) SameStore := ⟨fun _ _ _ first second => second.trans first⟩

abbrev ReadsStore (x : Service F α) : Prop := Program.Preserves SameStore x

theorem callOutside_reads (call : OutsideCall F) (answer : Except Error α) :
    ReadsStore (callOutside call answer) := ⟨fun _ => rfl⟩

theorem fetchAll_reads (marketData : MarketData) (symbols : List String) (startDate endDate : Date) :
    ReadsStore (F := F) (fetchAll marketData symbols startDate endDate) := ⟨fun _ => rfl⟩

section Readers
variable (ctx : Context) (methodology : AnalyticsMethodology) (ownerId portfolioId : UUID)

theorem PortfolioService.get_reads : ReadsStore (F := F) (get ownerId portfolioId) :=
  .bind (.read _) fun _ => .lift _

theorem PortfolioService.list_reads (limit offset : Int) : ReadsStore (F := F) (list ownerId limit offset) :=
  .bind (.read _) fun _ => .bind (.read _) fun _ => .pure _

theorem TransactionService.list_reads : ReadsStore (F := F) (list ownerId portfolioId) :=
  .bind (.read _) fun _ => .bind (.lift _) fun _ => .read _

theorem PortfolioInsightService.listSnapshots_reads (limit offset : Int) :
    ReadsStore (F := F) (listSnapshots ownerId portfolioId limit offset) :=
  .bind (.read _) fun _ => .bind (.lift _) fun _ => .bind (.read _) fun _ => .bind (.read _) fun _ => .pure _

variable [UnicodeDatabase]

theorem TransactionImportService.preview_reads (parser : TransactionCsvParser) (csvData : List UInt8)
    (fresh : Nat → Fresh) :
    ReadsStore (F := F) (preview ctx parser ownerId portfolioId csvData fresh) :=
  .bind (.bind (.read _) fun _ => .bind (.lift _) fun _ => .read _) fun _ =>
    .bind (callOutside_reads _ _) fun _ => .bind (.lift _) fun _ => .pure _

theorem PortfolioInsightService.narrate_reads (generator : Option (InsightGenerator F)) (input : InsightInput F)
    (insight : PortfolioInsight) : ReadsStore (narrate generator input insight) := by
  cases generator with
  | none => exact .pure _
  | some generator =>
    refine .bind (.attempt (.bind (callOutside_reads _ _) fun _ => .bind (.lift _) fun _ => .pure _))
      fun attempted => ?_
    cases attempted with
    | error raised => exact .pure _
    | ok generated => exact .pure _

variable [FloatArithmetic F]

theorem PortfolioAnalyticsService.analyze_reads (startDate endDate : Date) (marketData : MarketData) :
    ReadsStore (F := F) (analyze ctx methodology ownerId portfolioId startDate endDate marketData) := by
  refine .bind (.read _) fun _ => .bind (.lift _) fun _ => .bind (.read _) fun _ => ?_
  split
  · exact .raise _
  · refine .bind (.lift _) fun symbols => ?_
    split
    · exact .raise _
    · exact .bind (fetchAll_reads _ _ _ _) fun _ => .bind (.lift _) fun _ => .lift _

end Readers
end LedgerLens

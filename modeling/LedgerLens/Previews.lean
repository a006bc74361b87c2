import LedgerLens.ExactlyOnce
import LedgerLens.SameDecisions

namespace LedgerLens
open TransactionImportService (commitOutcome commitRow previewRow previewRows)
open Decimal (Context)

/-- The outcomes of a preview with what the commit calls them. -/
inductive Matches : TransactionImportRowStatus → TransactionImportRowStatus → Prop
  | ready : Matches .ready .created
  | replay : Matches .replay .replayed
  | invalid : Matches .invalid .failed

/-- A previewed row and the row that the commit reports for it. The codes of the issues may differ:
the commit does not tell a rejected ledger from a rejected transaction. -/
structure Predicts (previewed committed : TransactionImportRowResult) : Prop where
  rowNumber : committed.rowNumber = previewed.rowNumber
  externalId : committed.externalId = previewed.externalId
  status : Matches previewed.status committed.status
  transaction : Option.Rel SameEvent previewed.transaction committed.transaction
  issues : List.Forall₂ (fun issue issue' => issue'.message = issue.message ∧ issue'.field = issue.field)
    previewed.issues committed.issues

theorem predicts_of_candidate (candidate : TransactionImportCandidate) {status status' : TransactionImportRowStatus}
    (outcome : Matches status status') {t t' : Option Transaction} (same : Option.Rel SameEvent t t')
    {issue issue' : Option TransactionImportIssue}
    (explained : Option.Rel (fun issue issue' => issue'.message = issue.message ∧ issue'.field = issue.field)
      issue issue') :
    Predicts (importRowResult candidate status t issue) (importRowResult candidate status' t' issue') where
  rowNumber := rfl
  externalId := rfl
  status := outcome
  transaction := same
  issues := by
    refine List.rel_append (List.forall₂_same.mpr fun issue _ => ⟨rfl, rfl⟩) ?_
    cases explained with
    | none => exact .nil
    | some alike => exact .cons alike .nil

/-- The state of a preview after a row it found ready. -/
def PreviewState.push (state : PreviewState) (t : Transaction) : PreviewState where
  ledger := state.ledger ++ [t]
  transactionsByExternalId := state.transactionsByExternalId.set t.externalId t

variable [UnicodeDatabase]

/-- How a preview reports the decision on a row. -/
inductive Foretells (candidate : TransactionImportCandidate) (state : PreviewState) :
    Except Error TransactionCreation → TransactionImportRowResult → PreviewState → Prop
  | invalid {raised : Error} {issue issue' : TransactionImportIssue}
      (failed : commitOutcome candidate (.error raised) =
        .ok (importRowResult candidate .failed none (some issue')))
      (alike : issue'.message = issue.message ∧ issue'.field = issue.field) :
      Foretells candidate state (.error raised) (importRowResult candidate .invalid none (some issue)) state
  | replay {t : Transaction} :
      Foretells candidate state (.ok ⟨t, false⟩) (importRowResult candidate .replay (some t) none) state
  | ready {t : Transaction} :
      Foretells candidate state (.ok ⟨t, true⟩) (importRowResult candidate .ready (some t) none) (state.push t)

/-- A preview decides each row as the service would over the preview's own ledger. -/
theorem previewRow_eq_ok {ctx : Context} {portfolioId : UUID} {state next : PreviewState}
    {candidate : TransactionImportCandidate} {newTransaction : NewTransaction} {fresh : Fresh}
    {row : TransactionImportRowResult} (readable : candidate.readable = some newTransaction)
    (run : previewRow ctx portfolioId state candidate fresh = .ok (row, next)) :
    Foretells candidate state (decideRequest ctx portfolioId newTransaction fresh
      state.transactionsByExternalId.get? state.ledger) row next := by
  unfold previewRow at run
  unfold decideRequest
  simp only [readable] at run
  cases built : buildTransaction portfolioId newTransaction fresh.id fresh.now with
  | error raised =>
    rw [built, Checked.error_bind] at run
    cases raised with
    | invalidTransaction message =>
      cases run
      exact .invalid rfl ⟨rfl, rfl⟩
    | _ => cases run
  | ok t =>
    rw [built, Checked.ok_bind] at run
    rw [Checked.ok_bind]
    cases validated : validateTransaction t with
    | error raised =>
      rw [validated, Checked.error_bind] at run
      cases raised with
      | invalidTransaction message =>
        cases run
        exact .invalid rfl ⟨rfl, rfl⟩
      | _ => cases run
    | ok _ =>
      rw [validated, Checked.ok_bind] at run
      rw [Checked.ok_bind]
      have returned : (pure t : Except Error Transaction) = .ok t := rfl
      simp only [returned] at run
      cases found : state.transactionsByExternalId.get? t.externalId with
      | some existing =>
        rw [found] at run
        simp only at run ⊢
        cases same : sameTransactionPayload existing t with
        | true =>
          rw [same] at run
          cases run
          exact .replay
        | false =>
          rw [same] at run
          cases run
          exact .invalid rfl ⟨rfl, rfl⟩
      | none =>
        rw [found] at run
        simp only at run ⊢
        cases derived : derivePositions ctx (state.ledger ++ [t]) with
        | error raised =>
          rw [derived] at run
          cases raised with
          | invalidTransaction message =>
            cases run
            exact .invalid rfl ⟨rfl, rfl⟩
          | _ => cases run
        | ok positions =>
          rw [derived] at run
          cases run
          exact .ready

end LedgerLens

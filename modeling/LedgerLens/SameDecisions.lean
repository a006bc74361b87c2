import LedgerLens.Admission
import LedgerLens.Restamping

namespace LedgerLens
open Decimal (Context)
variable [UnicodeDatabase]

omit [UnicodeDatabase] in
theorem SameEvent.sameTransactionPayload_eq {a b c d : Transaction} (left : SameEvent a b) (right : SameEvent c d) :
    sameTransactionPayload a c = sameTransactionPayload b d := by
  rw [left.eq, right.eq]
  rfl

/-- The stamp of a request shows in the id and the recording time of what is built, and nowhere else. -/
theorem buildTransaction_sameEvent (portfolioId : UUID) (newTransaction : NewTransaction) (fresh fresh' : Fresh) :
    (∃ raised, buildTransaction portfolioId newTransaction fresh.id fresh.now = .error raised ∧
        buildTransaction portfolioId newTransaction fresh'.id fresh'.now = .error raised) ∨
      ∃ t t', buildTransaction portfolioId newTransaction fresh.id fresh.now = .ok t ∧
        buildTransaction portfolioId newTransaction fresh'.id fresh'.now = .ok t' ∧ SameEvent t t' := by
  have restamped := buildTransaction_restamp portfolioId newTransaction fresh.id fresh'.id fresh.now fresh'.now
  cases built : buildTransaction portfolioId newTransaction fresh.id fresh.now with
  | error raised =>
    rw [built] at restamped
    exact .inl ⟨raised, rfl, restamped⟩
  | ok t =>
    rw [built] at restamped
    refine .inr ⟨t, t.restamp fresh'.id fresh'.now, rfl, restamped, rfl, ?_, ?_⟩
    · rw [(BuiltFrom.of_eq_ok built).createdAt_eq]
      rintro _ ⟨⟩
      exact fresh.aware
    · rintro _ ⟨⟩
      exact fresh'.aware

/-- Decisions that differ at most in the stamp of what they create; what they replay is related. -/
inductive SameDecision (Replay : Transaction → Transaction → Prop) :
    Except Error TransactionCreation → Except Error TransactionCreation → Prop
  | refused (raised : Error) : SameDecision Replay (.error raised) (.error raised)
  | replayed {t t' : Transaction} (same : Replay t t') : SameDecision Replay (.ok ⟨t, false⟩) (.ok ⟨t', false⟩)
  | created {t t' : Transaction} (same : SameEvent t t') : SameDecision Replay (.ok ⟨t, true⟩) (.ok ⟨t', true⟩)

/-- A request is decided alike under two stamps, over lookups that find the same events and ledgers
that replay the same behind them. -/
theorem decideRequest_same (ctx : Context) (portfolioId : UUID) (newTransaction : NewTransaction)
    {fresh fresh' : Fresh} {find find' : String → Option Transaction} {ledger ledger' : List Transaction}
    {Replay : Transaction → Transaction → Prop} (events : ∀ t t', Replay t t' → SameEvent t t')
    (found : ∀ externalId, Option.Rel Replay (find externalId) (find' externalId))
    (derived : ∀ t t', SameEvent t t' → t.occurredAt.isUtc → t.Valid → t.createdAt = some fresh.now →
      t'.createdAt = some fresh'.now → derivePositions ctx (ledger ++ [t]) = derivePositions ctx (ledger' ++ [t'])) :
    SameDecision Replay (decideRequest ctx portfolioId newTransaction fresh find ledger)
      (decideRequest ctx portfolioId newTransaction fresh' find' ledger') := by
  unfold decideRequest
  rcases buildTransaction_sameEvent portfolioId newTransaction fresh fresh' with
    ⟨raised, built, built'⟩ | ⟨t, t', built, built', same⟩
  · rw [built, built']
    exact .refused raised
  · have from_request := BuiltFrom.of_eq_ok built
    have from_request' := BuiltFrom.of_eq_ok built'
    rw [built, built', Checked.ok_bind, Checked.ok_bind, ← same.validateTransaction_eq]
    cases validated : validateTransaction t with
    | error raised => exact .refused raised
    | ok _ =>
      have valid := validateTransaction_eq_ok.mp validated
      have utc : t.occurredAt.isUtc :=
        Transaction.Built.occurredAt_isUtc ⟨newTransaction, fresh, from_request.portfolioId_eq.symm ▸ built⟩ valid
      have sameId : t'.externalId = t.externalId := from_request'.externalId_eq.trans from_request.externalId_eq.symm
      rw [Checked.ok_bind, Checked.ok_bind, sameId]
      have related := found t.externalId
      generalize find t.externalId = located, find' t.externalId = located' at related ⊢
      cases related with
      | some replay =>
        simp only
        rw [← (events _ _ replay).sameTransactionPayload_eq same]
        cases sameTransactionPayload _ t with
        | true => exact .replayed replay
        | false => exact .refused _
      | none =>
        simp only
        rw [← derived t t' same utc valid from_request.createdAt_eq from_request'.createdAt_eq]
        cases derivePositions ctx (ledger ++ [t]) with
        | error raised => exact .refused raised
        | ok positions => exact .created same

end LedgerLens

import LedgerLens.Library.RowLocks
import LedgerLens.Retries

namespace LedgerLens
open Decimal (Context)
open RowLocks (Action Lawful Protocol Step)
variable {F : Type} [UnicodeDatabase]

structure CreateRequest where
  ownerId : UUID
  portfolioId : UUID
  newTransaction : NewTransaction
  fresh : Fresh

/-- Where `TransactionService.create` stands between two statements to the database: what the last
one returned, or the outcome with which the unit of work is left without a commit. -/
inductive CreateProgress where
  | locked (portfolio : Option Portfolio)
  | searched (transaction : Transaction) (existing : Option Transaction)
  | listed (transaction : Transaction) (ledger : List Transaction)
  | inserted (transaction : Transaction)
  | closing (outcome : Except Error TransactionCreation)

namespace CreateRequest
variable (ctx : Context) (request : CreateRequest)

/-- What happens between the lock and the first search. -/
def prepare (portfolio : Option Portfolio) : Except Error Transaction := do
  let _ ← requireOwned request.ownerId request.portfolioId portfolio
  let transaction ← buildTransaction request.portfolioId request.newTransaction request.fresh.id request.fresh.now
  validateTransaction transaction
  return transaction

/-- The next statement of `TransactionService.create`, on what is committed by then. Leaving the unit
of work without a commit rolls back, also where the stored transaction is returned. -/
def statement (store : Store F) : CreateProgress → Step CreateProgress Transaction (Except Error TransactionCreation)
  | .locked portfolio =>
    match request.prepare portfolio with
    | .error raised => .more (.closing (.error raised))
    | .ok transaction =>
      .more (.searched transaction (store.byExternalId request.portfolioId transaction.externalId))
  | .searched transaction (some existing) =>
    if sameTransactionPayload existing transaction then .more (.closing (.ok ⟨existing, false⟩))
    else .more (.closing (.error
      (.transactionIdempotencyConflict request.portfolioId transaction.externalId)))
  | .searched transaction none => .more (.listed transaction (store.ledger request.portfolioId))
  | .listed transaction ledger =>
    match derivePositions ctx (ledger ++ [transaction]) with
    | .error raised => .more (.closing (.error raised))
    | .ok _ => .more (.inserted transaction)
  | .inserted transaction => .commit transaction (.ok ⟨transaction, true⟩)
  | .closing outcome => .rollback outcome

/-- The outcome that is left to a request if nobody else commits. -/
def outlook (store : Store F) : CreateProgress → Except Error TransactionCreation
  | .locked portfolio => do
    let _ ← requireOwned request.ownerId request.portfolioId portfolio
    decideRequest ctx request.portfolioId request.newTransaction request.fresh (store.byExternalId request.portfolioId)
      (store.ledger request.portfolioId)
  | .searched transaction (some existing) =>
    if sameTransactionPayload existing transaction then .ok ⟨existing, false⟩
    else .error (.transactionIdempotencyConflict request.portfolioId transaction.externalId)
  | .searched transaction none => do
    let _ ← derivePositions ctx (store.ledger request.portfolioId ++ [transaction])
    return ⟨transaction, true⟩
  | .listed transaction ledger => do
    let _ ← derivePositions ctx (ledger ++ [transaction])
    return ⟨transaction, true⟩
  | .inserted transaction => .ok ⟨transaction, true⟩
  | .closing outcome => outcome

/-- `TransactionService.create` without interruption. -/
def decision (store : Store F) : Except Error TransactionCreation :=
  admission ctx request.ownerId request.portfolioId request.newTransaction request.fresh store

end CreateRequest

section Protocol
variable {ι : Type} (ctx : Context) (requests : ι → CreateRequest)

/-- Any number of creates against one database; `get_for_update` locks the row of the portfolio. -/
def createProtocol : Protocol ι UUID (Store F) CreateProgress Transaction (Except Error TransactionCreation) where
  row client := (requests client).portfolioId
  lockable portfolioId store := (store.portfolios.get? portfolioId).isSome
  missing client := .error (.portfolioNotFound (requests client).portfolioId)
  locked client store := .locked (store.portfolios.get? (requests client).portfolioId)
  statement client := (requests client).statement ctx
  apply transaction store := store.addTransaction transaction

/-- What a portfolio is made of: its row and the rows of its transactions. -/
def portfolioView (portfolioId : UUID) (store : Store F) : Option Portfolio × List Transaction :=
  (store.portfolios.get? portfolioId, store.rows portfolioId)

omit [UnicodeDatabase] in
theorem byExternalId_eq_rows (store : Store F) (portfolioId : UUID) (externalId : String) :
    store.byExternalId portfolioId externalId =
      (store.rows portfolioId).find? fun transaction => transaction.externalId = externalId := by
  rw [Store.rows, rowsOf, List.find?_filter, Store.byExternalId]
  simp only [Bool.decide_and, decide_eq_true_eq]

omit [UnicodeDatabase] in
theorem portfolioView_eq {portfolioId : UUID} {store store' : Store F}
    (same : portfolioView portfolioId store = portfolioView portfolioId store') :
    store.portfolios.get? portfolioId = store'.portfolios.get? portfolioId ∧
      store.byExternalId portfolioId = store'.byExternalId portfolioId ∧
      store.ledger portfolioId = store'.ledger portfolioId := by
  obtain ⟨portfolio, rows⟩ := Prod.mk.inj same
  refine ⟨portfolio, funext fun externalId => ?_, ?_⟩
  · rw [byExternalId_eq_rows, byExternalId_eq_rows, rows]
  · rw [Store.ledger, Store.ledger, rows]

theorem CreateRequest.decision_congr (request : CreateRequest) {store store' : Store F}
    (same : portfolioView request.portfolioId store = portfolioView request.portfolioId store') :
    request.decision ctx store = request.decision ctx store' := by
  obtain ⟨portfolio, search, ledger⟩ := portfolioView_eq same
  rw [decision, decision, admission, admission, portfolio, search, ledger]

omit [UnicodeDatabase] in
theorem settleCreation_rows (decision : Except Error TransactionCreation) (store : Store F) (portfolioId : UUID) :
    (settleCreation decision store).rows portfolioId = store.rows portfolioId ++
      match decision with
      | .ok ⟨transaction, true⟩ => rowsOf portfolioId [transaction]
      | _ => [] := by
  match decision with
  | .error _ => exact (List.append_nil _).symm
  | .ok ⟨_, false⟩ => exact (List.append_nil _).symm
  | .ok ⟨transaction, true⟩ => exact List.filter_append ..

/-- A create that nobody has interfered with still heads for its decision, and will not leave
without a commit what it reports as created. -/
structure Undisturbed (request : CreateRequest) (store : Store F) (progress : CreateProgress) : Prop where
  outlook : request.outlook ctx store progress = request.decision ctx store
  uncreated : ∀ outcome, progress = .closing outcome → ∀ transaction, outcome ≠ .ok ⟨transaction, true⟩

theorem CreateRequest.outlook_locked (request : CreateRequest) (store : Store F) (portfolio : Option Portfolio) :
    request.outlook ctx store (.locked portfolio) = request.prepare portfolio >>= fun transaction =>
      request.outlook ctx store
        (.searched transaction (store.byExternalId request.portfolioId transaction.externalId)) := by
  rw [prepare]
  simp only [bind_assoc, pure_bind]
  refine bind_congr fun _ => bind_congr fun transaction => bind_congr fun _ => ?_
  cases store.byExternalId request.portfolioId transaction.externalId <;> rfl

/-- A statement is followed by another, except at the two ends of the transaction. -/
theorem CreateRequest.statement_cases (request : CreateRequest) (store : Store F) (progress : CreateProgress) :
    (∃ next, request.statement ctx store progress = .more next) ∨
      (∃ outcome, progress = .closing outcome ∧ request.statement ctx store progress = .rollback outcome) ∨
      ∃ transaction, progress = .inserted transaction ∧
        request.statement ctx store progress = .commit transaction (.ok ⟨transaction, true⟩) := by
  cases progress with
  | locked portfolio =>
    left
    simp only [statement]
    split <;> exact ⟨_, rfl⟩
  | searched transaction existing =>
    left
    cases existing with
    | none => exact ⟨_, rfl⟩
    | some existing =>
      simp only [statement]
      split <;> exact ⟨_, rfl⟩
  | listed transaction ledger =>
    left
    simp only [statement]
    split <;> exact ⟨_, rfl⟩
  | inserted transaction => exact .inr (.inr ⟨transaction, rfl, rfl⟩)
  | closing outcome => exact .inr (.inl ⟨outcome, rfl, rfl⟩)

theorem Undisturbed.more {request : CreateRequest} {store : Store F} {progress next : CreateProgress}
    (undisturbed : Undisturbed ctx request store progress)
    (stepped : request.statement ctx store progress = .more next) : Undisturbed ctx request store next := by
  obtain ⟨outlook, _⟩ := undisturbed
  cases progress with
  | locked portfolio =>
    rw [CreateRequest.outlook_locked] at outlook
    cases prepared : request.prepare portfolio with
    | error raised =>
      simp only [CreateRequest.statement, prepared, Step.more.injEq] at stepped
      subst stepped
      rw [prepared] at outlook
      exact ⟨outlook, by rintro _ ⟨⟩ _ ⟨⟩⟩
    | ok transaction =>
      simp only [CreateRequest.statement, prepared, Step.more.injEq] at stepped
      subst stepped
      rw [prepared] at outlook
      exact ⟨outlook, by rintro _ ⟨⟩⟩
  | searched transaction existing =>
    cases existing with
    | none =>
      cases stepped
      exact ⟨outlook, by rintro _ ⟨⟩⟩
    | some existing =>
      simp only [CreateRequest.statement] at stepped
      simp only [CreateRequest.outlook] at outlook
      split at stepped
      · next same =>
        cases stepped
        rw [if_pos same] at outlook
        exact ⟨outlook, by rintro _ ⟨⟩ _ ⟨⟩⟩
      · next different =>
        cases stepped
        rw [if_neg different] at outlook
        exact ⟨outlook, by rintro _ ⟨⟩ _ ⟨⟩⟩
  | listed transaction ledger =>
    simp only [CreateRequest.outlook] at outlook
    cases derived : derivePositions ctx (ledger ++ [transaction]) with
    | error raised =>
      simp only [CreateRequest.statement, derived, Step.more.injEq] at stepped
      subst stepped
      rw [derived] at outlook
      exact ⟨outlook, by rintro _ ⟨⟩ _ ⟨⟩⟩
    | ok positions =>
      simp only [CreateRequest.statement, derived, Step.more.injEq] at stepped
      subst stepped
      rw [derived] at outlook
      exact ⟨outlook, by rintro _ ⟨⟩⟩
  | inserted transaction => cases stepped
  | closing outcome => cases stepped

theorem reaches_undisturbed {client : ι} {store : Store F} {progress : CreateProgress}
    (reaches : (createProtocol ctx requests).Reaches client store progress) :
    Undisturbed ctx (requests client) store progress := by
  induction reaches with
  | locked => exact ⟨rfl, by rintro _ ⟨⟩⟩
  | more _ stepped ih => exact ih.more ctx stepped

/-- A create sees and changes only its portfolio, and does as a whole what it does alone. -/
theorem createProtocol_lawful : Lawful (createProtocol (F := F) ctx requests) portfolioView
    (fun client store => (requests client).decision ctx store)
    (fun client store => settleCreation ((requests client).decision ctx store) store) where
  lockable_local same := congrArg Option.isSome (portfolioView_eq same).1
  locked_local same := congrArg CreateProgress.locked (portfolioView_eq same).1
  statement_local {client store store'} progress same := by
    obtain ⟨_, search, ledger⟩ := portfolioView_eq same
    have search' : store.byExternalId (requests client).portfolioId =
        store'.byExternalId (requests client).portfolioId := search
    have ledger' : store.ledger (requests client).portfolioId = store'.ledger (requests client).portfolioId := ledger
    simp only [createProtocol]
    cases progress with
    | locked portfolio => simp only [CreateRequest.statement, search']
    | searched transaction existing => cases existing <;> simp only [CreateRequest.statement, ledger']
    | _ => rfl
  answer_local same := (requests _).decision_congr ctx same
  settle_local {client store store'} same := by
    have decided := (requests client).decision_congr ctx same
    obtain ⟨portfolio, rows⟩ := Prod.mk.inj same
    simp only [portfolioView, settleCreation_portfolios, settleCreation_rows, decided, portfolio, rows]
  settle_other {client portfolioId} store other := by
    have kept : (settleCreation ((requests client).decision ctx store) store).rows portfolioId =
        store.rows portfolioId := by
      rw [settleCreation_rows]
      split
      · next transaction decided =>
        have own := (Accepts.of_admit decided).2
        have different : transaction.portfolioId ≠ portfolioId := own ▸ other
        have outside : rowsOf portfolioId [transaction] = [] := by simp [rowsOf, different]
        rw [outside, List.append_nil]
      · exact List.append_nil _
    rw [portfolioView, settleCreation_portfolios, kept, portfolioView]
  missing {client store} absent := by
    have unknown : store.portfolios.get? (requests client).portfolioId = none := by
      simpa [createProtocol] using absent
    have decided : (requests client).decision ctx store =
        .error (.portfolioNotFound (requests client).portfolioId) := by
      rw [CreateRequest.decision, admission, unknown]
      rfl
    rw [decided]
    exact ⟨rfl, rfl⟩
  rollback {client store progress outcome} reaches rolled := by
    obtain ⟨outlook, uncreated⟩ := reaches_undisturbed ctx requests reaches
    rcases (requests client).statement_cases ctx store progress with
      ⟨_, next⟩ | ⟨result, rfl, ended⟩ | ⟨transaction, _, ended⟩
    · cases next.symm.trans rolled
    · cases ended.symm.trans rolled
      have decided : (requests client).decision ctx store = outcome := outlook.symm
      refine ⟨decided, ?_⟩
      rw [decided]
      rcases outcome with raised | ⟨transaction, created⟩
      · rfl
      · cases created with
        | false => rfl
        | true => exact absurd rfl (uncreated _ rfl transaction)
    · cases ended.symm.trans rolled
  commit {client store progress transaction outcome} reaches committed := by
    obtain ⟨outlook, _⟩ := reaches_undisturbed ctx requests reaches
    rcases (requests client).statement_cases ctx store progress with
      ⟨_, next⟩ | ⟨result, _, ended⟩ | ⟨inserted, rfl, ended⟩
    · cases next.symm.trans committed
    · cases ended.symm.trans committed
    · cases ended.symm.trans committed
      have decided : (requests client).decision ctx store = .ok ⟨transaction, true⟩ := outlook.symm
      rw [decided]
      exact ⟨rfl, rfl⟩

end Protocol
end LedgerLens

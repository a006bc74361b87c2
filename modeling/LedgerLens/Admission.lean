import LedgerLens.TransactionService
import LedgerLens.NormalizedTransactions

namespace LedgerLens
open Decimal (Context)
variable {F : Type}

theorem requireOwned_eq_ok {ownerId portfolioId : UUID} {found : Option Portfolio} {portfolio : Portfolio} :
    requireOwned ownerId portfolioId found = .ok portfolio ↔ found = some portfolio ∧ portfolio.ownerId = ownerId := by
  cases found with
  | none => simp [requireOwned]
  | some other =>
    simp only [requireOwned, Checked.guard_eq_ok, not_not, Except.ok.injEq, Option.some.injEq]
    exact ⟨fun ⟨owner, same⟩ => ⟨same, same ▸ owner⟩, fun ⟨same, owner⟩ => ⟨same ▸ owner, same⟩⟩

theorem requireOwned_eq_error {ownerId portfolioId : UUID} {found : Option Portfolio}
    (foreign : ∀ portfolio ∈ found, portfolio.ownerId ≠ ownerId) :
    requireOwned ownerId portfolioId found = .error (.portfolioNotFound portfolioId) := by
  cases found with
  | none => rfl
  | some portfolio => exact if_pos (foreign portfolio rfl)

/-- The portfolio exists and belongs to the user. -/
def Store.owns (store : Store F) (user portfolioId : UUID) : Bool :=
  (store.portfolios.get? portfolioId).any fun portfolio => portfolio.ownerId = user

theorem owned_of_owns {store : Store F} {ownerId portfolioId : UUID} (owned : store.owns ownerId portfolioId) :
    ∃ portfolio, requireOwned ownerId portfolioId (store.portfolios.get? portfolioId) = .ok portfolio := by
  simp only [Store.owns, Option.any_eq_true, decide_eq_true_eq] at owned
  obtain ⟨portfolio, found, owner⟩ := owned
  exact ⟨portfolio, requireOwned_eq_ok.mpr ⟨found, owner⟩⟩

theorem owns_of_requireOwned {store : Store F} {user portfolioId : UUID} {portfolio : Portfolio}
    (owned : requireOwned user portfolioId (store.portfolios.get? portfolioId) = .ok portfolio) :
    store.owns user portfolioId := by
  obtain ⟨found, owner⟩ := requireOwned_eq_ok.mp owned
  simp [Store.owns, found, owner]

theorem requireOwned_foreign {store : Store F} {user portfolioId : UUID}
    (foreign : store.owns user portfolioId = false) :
    requireOwned user portfolioId (store.portfolios.get? portfolioId) = .error (.portfolioNotFound portfolioId) := by
  refine requireOwned_eq_error fun portfolio found owner => ?_
  rw [Option.mem_def] at found
  simp [Store.owns, found, owner] at foreign

variable [UnicodeDatabase]

/-- What becomes of a request for an owned portfolio, given the lookup by external id and the ledger. -/
def decideRequest (ctx : Context) (portfolioId : UUID) (newTransaction : NewTransaction) (fresh : Fresh)
    (byExternalId : String → Option Transaction) (ledger : List Transaction) : Except Error TransactionCreation := do
  let transaction ← buildTransaction portfolioId newTransaction fresh.id fresh.now
  validateTransaction transaction
  match byExternalId transaction.externalId with
  | some existing =>
    if sameTransactionPayload existing transaction then return ⟨existing, false⟩
    else .error (.transactionIdempotencyConflict portfolioId transaction.externalId)
  | none => do
    let _ ← derivePositions ctx (ledger ++ [transaction])
    return ⟨transaction, true⟩

/-- What `TransactionService.create` decides from the store alone. -/
def admission (ctx : Context) (ownerId portfolioId : UUID) (newTransaction : NewTransaction) (fresh : Fresh)
    (store : Store F) : Except Error TransactionCreation := do
  let _ ← requireOwned ownerId portfolioId (store.portfolios.get? portfolioId)
  decideRequest ctx portfolioId newTransaction fresh (store.byExternalId portfolioId) (store.ledger portfolioId)

/-- The store after a decision: only a creation changes it. -/
def settleCreation (decision : Except Error TransactionCreation) (store : Store F) : Store F :=
  match decision with
  | .ok ⟨transaction, true⟩ => store.addTransaction transaction
  | _ => store

omit [UnicodeDatabase] in
@[simp] theorem settleCreation_portfolios (decision : Except Error TransactionCreation) (store : Store F) :
    (settleCreation decision store).portfolios = store.portfolios := by
  match decision with
  | .error _ => rfl
  | .ok ⟨_, false⟩ => rfl
  | .ok ⟨_, true⟩ => rfl

omit [UnicodeDatabase] in
@[simp] theorem settleCreation_owns (decision : Except Error TransactionCreation) (store : Store F)
    (ownerId portfolioId : UUID) :
    (settleCreation decision store).owns ownerId portfolioId = store.owns ownerId portfolioId := by
  unfold Store.owns
  rw [settleCreation_portfolios]

/-- `TransactionService.create` answers as decided, and writes exactly what was decided. -/
theorem create_run (ctx : Context) (ownerId portfolioId : UUID) (newTransaction : NewTransaction)
    (fresh : Fresh) (world : World F) :
    (TransactionService.create ctx ownerId portfolioId newTransaction fresh).run world =
      (admission ctx ownerId portfolioId newTransaction fresh world.store,
        world.update (settleCreation (admission ctx ownerId portfolioId newTransaction fresh world.store))) := by
  unfold TransactionService.create admission decideRequest
  rw [Program.bind_ok (PortfolioRepository.getForUpdate_run world portfolioId)]
  cases owned : requireOwned ownerId portfolioId (world.store.portfolios.get? portfolioId) with
  | error raised => rfl
  | ok portfolio =>
    rw [Program.bind_ok (Program.lift_run _ world), Checked.ok_bind]
    cases built : buildTransaction portfolioId newTransaction fresh.id fresh.now with
    | error raised => rfl
    | ok transaction =>
      rw [Program.bind_ok (Program.lift_run _ world), Checked.ok_bind]
      cases validated : validateTransaction transaction with
      | error raised => rfl
      | ok _ =>
        rw [Program.bind_ok (Program.lift_run _ world), Checked.ok_bind,
          Program.bind_ok (TransactionRepository.getByExternalId_run world portfolioId _)]
        cases found : world.store.byExternalId portfolioId transaction.externalId with
        | some existing =>
          cases same : sameTransactionPayload existing transaction with
          | true => simp only [same, if_true]; rfl
          | false => simp only [same, if_neg Bool.false_ne_true]; rfl
        | none =>
          simp only
          rw [Program.bind_ok (TransactionRepository.listForPortfolio_run world portfolioId)]
          cases derived : derivePositions ctx (world.store.ledger portfolioId ++ [transaction]) <;> rfl

/-- The ways a request can succeed: a fresh transaction the replay accepts, or a replay of the one
already stored under its external id. -/
theorem decideRequest_eq_ok {ctx : Context} {portfolioId : UUID} {newTransaction : NewTransaction} {fresh : Fresh}
    {find : String → Option Transaction} {ledger : List Transaction} {creation : TransactionCreation} :
    decideRequest ctx portfolioId newTransaction fresh find ledger = .ok creation ↔
      ∃ transaction, buildTransaction portfolioId newTransaction fresh.id fresh.now = .ok transaction ∧
        transaction.Valid ∧
        ((∃ existing, find transaction.externalId = some existing ∧
            sameTransactionPayload existing transaction ∧ creation = ⟨existing, false⟩) ∨
          find transaction.externalId = none ∧
            (∃ positions, derivePositions ctx (ledger ++ [transaction]) = .ok positions) ∧
            creation = ⟨transaction, true⟩) := by
  unfold decideRequest
  simp only [Checked.bind_eq_ok]
  constructor
  · rintro ⟨transaction, built, _, validated, decided⟩
    refine ⟨transaction, built, validateTransaction_eq_ok.mp validated, ?_⟩
    split at decided
    · next existing stored =>
      split at decided
      · next same => exact .inl ⟨existing, stored, same, (Checked.pure_eq_ok.mp decided).symm⟩
      · cases decided
    · next absent =>
      obtain ⟨positions, derived, result⟩ := Checked.bind_eq_ok.mp decided
      exact .inr ⟨absent, ⟨positions, derived⟩, (Checked.pure_eq_ok.mp result).symm⟩
  · rintro ⟨transaction, built, valid, decided⟩
    refine ⟨transaction, built, ⟨⟩, validateTransaction_eq_ok.mpr valid, ?_⟩
    rcases decided with ⟨existing, stored, same, rfl⟩ | ⟨absent, ⟨positions, derived⟩, rfl⟩
    · rw [stored]
      simp only [same, if_true]
      rfl
    · rw [absent]
      exact Checked.bind_eq_ok.mpr ⟨positions, derived, rfl⟩

/-- What holds of a transaction that a request creates. -/
structure Creates (ctx : Context) (portfolioId : UUID) (newTransaction : NewTransaction) (fresh : Fresh)
    (find : String → Option Transaction) (ledger : List Transaction) (t : Transaction) : Prop where
  built : buildTransaction portfolioId newTransaction fresh.id fresh.now = .ok t
  valid : t.Valid
  absent : find t.externalId = none
  replayed : ∃ positions, derivePositions ctx (ledger ++ [t]) = .ok positions

theorem decideRequest_created {ctx : Context} {portfolioId : UUID} {newTransaction : NewTransaction} {fresh : Fresh}
    {find : String → Option Transaction} {ledger : List Transaction} {t : Transaction}
    (decided : decideRequest ctx portfolioId newTransaction fresh find ledger = .ok ⟨t, true⟩) :
    Creates ctx portfolioId newTransaction fresh find ledger t := by
  obtain ⟨transaction, built, valid, outcome⟩ := decideRequest_eq_ok.mp decided
  rcases outcome with ⟨existing, _, _, replay⟩ | ⟨absent, replayed, created⟩
  · cases replay
  · cases created
    exact ⟨built, valid, absent, replayed⟩

theorem admit_created {ctx : Context} {ownerId portfolioId : UUID} {newTransaction : NewTransaction} {fresh : Fresh}
    {store : Store F} {t : Transaction}
    (decided : admission ctx ownerId portfolioId newTransaction fresh store = .ok ⟨t, true⟩) :
    Creates ctx portfolioId newTransaction fresh (store.byExternalId portfolioId) (store.ledger portfolioId) t := by
  obtain ⟨_, _, decided⟩ := Checked.bind_eq_ok.mp decided
  exact decideRequest_created decided

theorem admit_eq_ok {ctx : Context} {ownerId portfolioId : UUID} {newTransaction : NewTransaction}
    {fresh : Fresh} {store : Store F} {creation : TransactionCreation} :
    admission ctx ownerId portfolioId newTransaction fresh store = .ok creation ↔
      ∃ portfolio transaction,
        store.portfolios.get? portfolioId = some portfolio ∧ portfolio.ownerId = ownerId ∧
        buildTransaction portfolioId newTransaction fresh.id fresh.now = .ok transaction ∧ transaction.Valid ∧
        ((∃ existing, store.byExternalId portfolioId transaction.externalId = some existing ∧
            sameTransactionPayload existing transaction ∧ creation = ⟨existing, false⟩) ∨
          store.byExternalId portfolioId transaction.externalId = none ∧
            (∃ positions, derivePositions ctx (store.ledger portfolioId ++ [transaction]) = .ok positions) ∧
            creation = ⟨transaction, true⟩) := by
  unfold admission
  simp only [Checked.bind_eq_ok, requireOwned_eq_ok, decideRequest_eq_ok]
  constructor
  · rintro ⟨portfolio, ⟨found, owner⟩, transaction, decided⟩
    exact ⟨portfolio, transaction, found, owner, decided⟩
  · rintro ⟨portfolio, transaction, found, owner, decided⟩
    exact ⟨portfolio, ⟨found, owner⟩, transaction, decided⟩

end LedgerLens

import LedgerLens.HttpIsolation
import LedgerLens.ImportRuns
import LedgerLens.InputOrder

namespace LedgerLens
open Decimal (Context)
open Checked (OnlyRaises)
open TransactionImportService (commitOutcome commitRow)
variable {F : Type}

/-- What `TransactionService.create` raises for the owner of a portfolio. -/
inductive Error.OfCreate : Error → Prop
  | refusal {raised : Error} (refused : raised.IsRefusal) : OfCreate raised
  | overflowError : OfCreate .overflowError
  | assertionError : OfCreate .assertionError

theorem Error.OfCreate.invalidTransaction (message : String) : OfCreate (.invalidTransaction message) :=
  .refusal (.invalidTransaction message)

/-- The part of them that an import row does not report is an internal error. -/
theorem commitOutcome_internal {candidate : TransactionImportCandidate} {decision : Except Error TransactionCreation}
    (raises : OnlyRaises Error.OfCreate decision) :
    OnlyRaises (fun raised => (HttpError.application raised).response.statusCode = 500)
      (commitOutcome candidate decision) := by
  match decision with
  | .ok creation => exact .ok _
  | .error raised =>
    cases raises raised rfl with
    | refusal refused => cases refused <;> exact .ok _
    | overflowError => exact .error rfl
    | assertionError => exact .error rfl

section Requests
variable [UnicodeDatabase]

theorem derivePositions_ofCreate (ctx : Context) (transactions : List Transaction) :
    OnlyRaises Error.OfCreate (derivePositions ctx transactions) := by
  refine .bind (.forM fun t _ => validateTransaction_onlyRaises .invalidTransaction t) fun _ _ =>
    .bind (fun raised failed => ?_) fun _ _ => .bind (.foldlM (fun positions t _ => ?_) _) fun _ _ => .ok _
  · rw [sortOnM_ledgerOrder_overflows transactions raised failed]
    exact .overflowError
  · unfold changePosition
    split
    · exact .ok _
    · split
      · simp only
        split
        · exact .ok _
        · exact .guard (.invalidTransaction _) fun _ => .ok _
      · exact .error .assertionError

theorem buildTransaction_ofCreate {portfolioId transactionId : UUID} {newTransaction : NewTransaction}
    {createdAt : DateTime} :
    OnlyRaises Error.OfCreate (buildTransaction portfolioId newTransaction transactionId createdAt) := by
  by_cases convertible : Convertible newTransaction.occurredAt
  · exact fun raised failed => .refusal (buildTransaction_refuses convertible raised failed)
  · rw [buildTransaction_overflows convertible]
    exact .error .overflowError

theorem admission_ofCreate (ctx : Context) {ownerId portfolioId : UUID} (newTransaction : NewTransaction)
    (fresh : Fresh) {store : Store F} (owned : store.owns ownerId portfolioId) :
    OnlyRaises Error.OfCreate (admission ctx ownerId portfolioId newTransaction fresh store) := by
  obtain ⟨portfolio, passed⟩ := owned_of_owns owned
  unfold admission decideRequest
  rw [passed, Checked.ok_bind]
  refine .bind buildTransaction_ofCreate fun t _ =>
    .bind (validateTransaction_onlyRaises .invalidTransaction t) fun _ _ => ?_
  split
  · split
    · exact .ok _
    · exact .error (.refusal (.conflict _ _))
  · exact .bind (derivePositions_ofCreate ctx _) fun _ _ => .ok _

section Imports
variable (ctx : Context) {ownerId portfolioId : UUID} (fresh : Nat → Fresh)

theorem commitRow_internal (candidate : TransactionImportCandidate) (stamp : Fresh) {world after : World F}
    (owned : world.store.owns ownerId portfolioId) {raised : Error}
    (failed : (commitRow ctx ownerId portfolioId candidate stamp).run world = (.error raised, after)) :
    (HttpError.application raised).response.statusCode = 500 := by
  cases readable : candidate.readable with
  | none =>
    rw [commitRow_run_unread _ _ _ readable] at failed
    cases congrArg Prod.fst failed
  | some newTransaction =>
    rw [commitRow_run _ _ _ readable] at failed
    exact commitOutcome_internal (admission_ofCreate ctx newTransaction stamp owned) raised (congrArg Prod.fst failed)

theorem commitRow_owns (ownerId portfolioId : UUID) (candidate : TransactionImportCandidate) (stamp : Fresh)
    (world : World F) :
    ((commitRow ctx ownerId portfolioId candidate stamp).run world).2.store.owns ownerId portfolioId =
      world.store.owns ownerId portfolioId := by
  cases readable : candidate.readable with
  | none => rw [commitRow_run_unread _ _ _ readable]
  | some newTransaction => rw [commitRow_run _ _ _ readable, World.update_store, settleCreation_owns]

/-- An exception that ends the loop over the rows of an import is an internal error. -/
theorem commitRows_internal {candidates : List (TransactionImportCandidate × Nat)} {world after : World F}
    (owned : world.store.owns ownerId portfolioId) {raised : Error}
    (failed : (commitRows ctx ownerId portfolioId fresh candidates).run world = (.error raised, after)) :
    (HttpError.application raised).response.statusCode = 500 := by
  induction candidates generalizing world after raised with
  | nil => cases congrArg Prod.fst failed
  | cons candidate rest ih =>
    rw [commitRows, Program.collect, Program.bind_run] at failed
    have kept := commitRow_owns ctx ownerId portfolioId candidate.1 (fresh candidate.2) world
    rcases first : (commitRow ctx ownerId portfolioId candidate.1 (fresh candidate.2)).run world with
      ⟨own | row, next⟩
    · rw [first] at failed
      cases Except.error.inj (congrArg Prod.fst failed)
      exact commitRow_internal ctx candidate.1 (fresh candidate.2) owned first
    · rw [first] at failed kept
      have still : next.store.owns ownerId portfolioId := kept.trans owned
      simp only [Program.bind_run] at failed
      rcases later : (commitRows ctx ownerId portfolioId fresh rest).run next with ⟨own | rows, final⟩
      · have ends := ih still later
        rw [commitRows] at later
        rw [later] at failed
        cases Except.error.inj (congrArg Prod.fst failed)
        exact ends
      · rw [commitRows] at later
        rw [later] at failed
        cases congrArg Prod.fst failed

end Imports

section Services
variable (ctx : Context) {world after : World F} {raised : Error}

/-- An import that fails has stored nothing, or it fails on the server's side. -/
theorem TransactionImportService.commit_failed (parser : TransactionCsvParser) {ownerId portfolioId : UUID}
    {csvData : List UInt8} {fresh : Nat → Fresh}
    (failed : (commit ctx parser ownerId portfolioId csvData fresh).run world = (.error raised, after)) :
    after.store = world.store ∨ (HttpError.application raised).response.statusCode = 500 := by
  unfold commit at failed
  cases checked : requireOwned ownerId portfolioId (world.store.portfolios.get? portfolioId) with
  | error own =>
    have stopped : (assertOwned (F := F) ownerId portfolioId).run world = (.error own, world) := by
      simp only [assertOwned, Program.bind_run, PortfolioRepository.get_run, Program.lift_run, checked]
    rw [Program.bind_error stopped] at failed
    exact .inl (congrArg (fun outcome => outcome.2.store) failed).symm
  | ok portfolio =>
    have owned : world.store.owns ownerId portfolioId := owns_of_requireOwned checked
    rw [Program.bind_ok (assertOwned_of_owns owned)] at failed
    cases parsed : parser csvData with
    | error own =>
      have stopped : (callOutside (.parsed csvData) (parser csvData)).run world =
          (.error own, world.record (.parsed csvData)) := by rw [callOutside_run, parsed]
      rw [Program.bind_error stopped] at failed
      exact .inl (congrArg (fun outcome => outcome.2.store) failed).symm
    | ok candidates =>
      have read : (callOutside (.parsed csvData) (parser csvData)).run world =
          (.ok candidates, world.record (.parsed csvData)) := by rw [callOutside_run, parsed]
      rw [Program.bind_ok read, Program.bind_run] at failed
      rcases rows : (commitRows ctx ownerId portfolioId fresh candidates.zipIdx).run
          (world.record (.parsed csvData)) with ⟨own | reports, next⟩
      · have still : (world.record (.parsed csvData)).store.owns ownerId portfolioId := owned
        have internal := commitRows_internal ctx fresh still rows
        rw [commitRows] at rows
        rw [rows] at failed
        cases Except.error.inj (congrArg Prod.fst failed)
        exact .inr internal
      · rw [commitRows] at rows
        rw [rows] at failed
        cases congrArg Prod.fst failed

variable [FloatArithmetic F]

/-- An insight that is not given leaves no snapshot. -/
theorem PortfolioInsightService.generate_failed (methodology : AnalyticsMethodology) {ownerId portfolioId : UUID}
    {startDate endDate : Date} {marketData : MarketData} {generator : Option (InsightGenerator F)} {fresh : Fresh}
    (failed : (generate ctx methodology ownerId portfolioId startDate endDate marketData generator fresh).run world =
      (.error raised, after)) : after.store = world.store := by
  rw [generate, Program.bind_run] at failed
  have analyzed := (PortfolioAnalyticsService.analyze_reads (F := F) ctx methodology ownerId portfolioId startDate
    endDate marketData).step world
  match analysis : (PortfolioAnalyticsService.analyze (F := F) ctx methodology ownerId portfolioId startDate endDate
      marketData).run world with
  | (.error own, next) =>
    rw [analysis] at failed analyzed
    obtain ⟨_, rfl⟩ := Prod.mk.inj failed
    exact analyzed
  | (.ok analytics, next) =>
    rw [analysis] at failed analyzed
    simp only [Program.bind_run] at failed
    have narrated := (narrate_reads generator (buildInsightInput analytics)
      (generateDeterministicInsight analytics)).step next
    match narration : (narrate generator (buildInsightInput analytics)
        (generateDeterministicInsight analytics)).run next with
    | (.error own, final) =>
      rw [narration] at failed narrated
      obtain ⟨_, rfl⟩ := Prod.mk.inj failed
      exact Eq.trans narrated analyzed
    | (.ok insight, final) =>
      rw [narration] at failed
      cases congrArg Prod.fst failed

/-- A call that fails has changed nothing; an import that has done so fails on the server's side. -/
theorem serve_failed (wiring : Wiring) {call : Call F}
    (failed : (serve ctx wiring call).run world = (.error raised, after)) :
    after.store = world.store ∨ (∃ portfolioId csvData fresh, call.request = .commitImport portfolioId csvData fresh) ∧
      (HttpError.application raised).response.statusCode = 500 := by
  obtain ⟨ownerId, request⟩ := call
  have reads {α : Type} {x : Service F α} {f : α → Response F} (kept : ReadsStore x)
      (run : (f <$> x).run world = (.error raised, after)) : after.store = world.store := by
    have step := (kept.map f).step world
    rw [run] at step
    exact step
  have inner {α : Type} {x : Service F α} {f : α → Response F} (run : (f <$> x).run world = (.error raised, after)) :
      x.run world = (.error raised, after) := by
    rw [Program.map_run] at run
    match outcome : x.run world with
    | (.error own, next) =>
      rw [outcome] at run
      obtain ⟨same, rfl⟩ := Prod.mk.inj run
      rw [Except.error.inj same]
    | (.ok a, next) =>
      rw [outcome] at run
      cases congrArg Prod.fst run
  cases request with
  | createPortfolio name baseCurrency id =>
    have run := inner failed
    cases taken : world.store.portfolios.get? id with
    | some existing =>
      rw [PortfolioService.create_run_taken ownerId name baseCurrency world taken] at run
      exact .inl (congrArg (fun outcome => outcome.2.store) run).symm
    | none =>
      rw [PortfolioService.create_run_unused ownerId name baseCurrency world taken] at run
      cases congrArg Prod.fst run
  | getPortfolio portfolioId => exact .inl (reads (PortfolioService.get_reads ..) failed)
  | listPortfolios limit offset => exact .inl (reads (PortfolioService.list_reads ..) failed)
  | createTransaction portfolioId newTransaction fresh =>
    have run := inner failed
    rw [create_run] at run
    obtain ⟨decided, rfl⟩ := Prod.mk.inj run
    rw [decided]
    exact .inl rfl
  | listTransactions portfolioId => exact .inl (reads (TransactionService.list_reads ..) failed)
  | previewImport portfolioId csvData fresh =>
    exact .inl (reads (TransactionImportService.preview_reads ..) failed)
  | commitImport portfolioId csvData fresh =>
    exact (TransactionImportService.commit_failed ctx wiring.parser (inner failed)).imp_right fun internal =>
      ⟨⟨portfolioId, csvData, fresh, rfl⟩, internal⟩
  | analyze portfolioId startDate endDate marketData =>
    exact .inl (reads (PortfolioAnalyticsService.analyze_reads ..) failed)
  | generateInsight portfolioId startDate endDate marketData generator fresh =>
    exact .inl (PortfolioInsightService.generate_failed ctx wiring.methodology (inner failed))
  | listSnapshots portfolioId limit offset =>
    exact .inl (reads (PortfolioInsightService.listSnapshots_reads ..) failed)

end Services

namespace HttpApi
variable {σ : Type} {api : HttpApi σ} {request : HttpRequest F σ} {world after : HttpWorld F} {raised : HttpError}
  {calls : List (OutsideCall F)}

/-- What an error response says about the world it leaves. Only an import that fails on the server's side may have
changed the store; nothing outside is asked where no service raised the error; and a request without a valid token
is not even counted. -/
structure Refused (request : HttpRequest F σ) (world after : HttpWorld F) (raised : HttpError)
    (calls : List (OutsideCall F)) : Prop where
  users : after.users = world.users
  store : after.store = world.store ∨ (∃ authorization portfolioId csvData fresh,
    request.route = .user authorization (.valid (.commitImport portfolioId csvData fresh))) ∧
      raised.response.statusCode = 500
  outside : calls = [] ∨ ∃ own, raised = .application own
  uncounted : raised = .authentication → ∀ authorization content, request.route = .user authorization content →
    after = world

omit [UnicodeDatabase]

theorem Refused.unchanged (request : HttpRequest F σ) (world : HttpWorld F) (raised : HttpError) :
    Refused request world world raised [] :=
  ⟨rfl, .inl rfl, .inl rfl, fun _ _ _ _ => rfl⟩

theorem enforce_error {now : ℚ} {write : Write} {rule : RateLimitRule} {identifier : String}
    {counters : Redis.Store Int} (failed : (api.enforce now write rule identifier counters).1 = .error raised) :
    ∃ seconds, raised = .rateLimitExceeded seconds := by
  unfold enforce at failed
  cases wired : api.rateLimiter with
  | none =>
    rw [wired] at failed
    cases failed
  | some limiter =>
    rw [wired] at failed
    cases write with
    | failed reached => cases failed
    | stored =>
      simp only at failed
      cases answer : (limiter.enforce now rule identifier counters).1 with
      | ok _ =>
        rw [answer] at failed
        cases failed
      | error exceeded =>
        rw [answer] at failed
        exact ⟨_, (Except.error.inj failed).symm⟩

/-- A failure under a limit is that of the limit or that of what it guards. -/
theorem limited_failed {now : ℚ} {write : Write} {rule : RateLimitRule} {identifier : String}
    {handler : HttpWorld F → (HttpResponse F × List (OutsideCall F)) × HttpWorld F}
    (failed : api.limited now write rule identifier world handler = ((.failure raised, calls), after)) :
    (∃ seconds counters, raised = .rateLimitExceeded seconds ∧ calls = [] ∧
      after = { world with counters := counters }) ∨
      ∃ counters, handler { world with counters := counters } = ((.failure raised, calls), after) := by
  unfold limited at failed
  match enforced : api.enforce now write rule identifier world.counters with
  | (.error own, counters) =>
    rw [enforced] at failed
    obtain ⟨response, rfl⟩ := Prod.mk.inj failed
    obtain ⟨same, rfl⟩ := Prod.mk.inj response
    obtain ⟨seconds, limit⟩ := enforce_error (congrArg Prod.fst enforced)
    exact .inl ⟨seconds, counters, (HttpResponse.failure.inj same).symm.trans limit, rfl, rfl⟩
  | (.ok _, counters) =>
    rw [enforced] at failed
    exact .inr ⟨counters, failed⟩

theorem Refused.limit (request : HttpRequest F σ) (world : HttpWorld F) (seconds : Int) (counters : Redis.Store Int) :
    Refused request world { world with counters := counters } (.rateLimitExceeded seconds) [] :=
  ⟨rfl, .inl rfl, .inl rfl, fun same => nomatch same⟩

theorem register_refused {client : HttpClient} {payload : Option Credentials} {salt : σ} {userId : UUID}
    (route : request.route = .register client payload salt userId)
    (failed : api.register request client payload salt userId world = ((.failure raised, calls), after)) :
    Refused request world after raised calls := by
  unfold register at failed
  cases payload with
  | none =>
    cases failed
    exact .unchanged ..
  | some payload =>
    rcases limited_failed failed with ⟨seconds, counters, rfl, rfl, rfl⟩ | ⟨counters, failed⟩
    · exact .limit ..
    · have other : raised = .authentication → ∀ authorization content, request.route = .user authorization content →
          after = world := by
        intro _ authorization content isUser
        rw [route] at isUser
        cases isUser
      split at failed
      · next own users outcome =>
        obtain ⟨response, rfl⟩ := Prod.mk.inj failed
        obtain ⟨_, rfl⟩ := Prod.mk.inj response
        exact ⟨AuthenticationService.register_failed outcome, .inl rfl, .inl rfl, other⟩
      · cases failed

theorem login_refused {client : HttpClient} {payload : Option Credentials}
    (route : request.route = .login client payload)
    (failed : api.login request client payload world = ((.failure raised, calls), after)) :
    Refused request world after raised calls := by
  have other : raised = .authentication → ∀ authorization content, request.route = .user authorization content →
      after = world := by
    intro _ authorization content isUser
    rw [route] at isUser
    cases isUser
  unfold login at failed
  cases payload with
  | none =>
    cases failed
    exact .unchanged ..
  | some payload =>
    rcases limited_failed failed with ⟨seconds, counters, rfl, rfl, rfl⟩ | ⟨counters, failed⟩
    · exact .limit ..
    · rcases limited_failed failed with ⟨seconds, counters, rfl, rfl, rfl⟩ | ⟨counters, failed⟩
      · exact .limit ..
      · split at failed
        · cases failed
          exact ⟨rfl, .inl rfl, .inl rfl, other⟩
        · cases failed

/-- A service answers for itself. -/
theorem respond_cases (call : Request F) (result : Except Error (Response F)) :
    (∃ status response, call.respond result = .success status (.service response)) ∨
      ∃ raised, call.respond result = .failure (.application raised) := by
  cases result with
  | error raised => exact .inr ⟨raised, rfl⟩
  | ok response => cases call <;> exact .inl ⟨_, response, rfl⟩

variable [UnicodeDatabase] [FloatArithmetic F]

theorem dispatch_refused {authorization : Option (String × String)} {content : UserContent F} {account : User}
    {counters : Redis.Store Int} (route : request.route = .user authorization content)
    (failed : api.dispatch content account { world with counters := counters } = ((.failure raised, calls), after)) :
    Refused request world after raised calls := by
  have validation : api.dispatch content account { world with counters := counters } =
      ((.failure .requestValidation, []), { world with counters := counters }) →
        Refused request world after raised calls := by
    intro invalid
    cases invalid.symm.trans failed
    exact ⟨rfl, .inl rfl, .inl rfl, fun same => nomatch same⟩
  cases content with
  | unreadable => exact validation rfl
  | invalid limit => exact validation rfl
  | valid call =>
    obtain ⟨response, rfl⟩ := Prod.mk.inj failed
    obtain ⟨answer, rfl⟩ := Prod.mk.inj response
    match served : (serve api.ctx api.wiring ⟨account.id, call⟩).run { store := world.store } with
    | (.ok result, next) =>
      simp only [served] at answer
      unfold Request.respond at answer
      cases call <;> cases answer
    | (.error own, next) =>
      simp only [served] at answer ⊢
      cases answer
      refine ⟨rfl, ?_, .inr ⟨own, rfl⟩, fun same => nomatch same⟩
      rcases serve_failed api.ctx api.wiring served with same | ⟨⟨portfolioId, csvData, fresh, isImport⟩, internal⟩
      · exact .inl same
      · exact .inr ⟨⟨authorization, portfolioId, csvData, fresh, by rw [route]; exact congrArg _ (congrArg _ isImport)⟩,
          internal⟩

end HttpApi

/-- A request that is answered with an error has changed nothing, unless it is an import that fails on the server's
side. -/
theorem refused_requests_change_nothing {σ : Type} [FloatArithmetic F] {api : HttpApi σ}
    {request : HttpRequest F σ} {world after : HttpWorld F} {raised : HttpError} {calls : List (OutsideCall F)}
    (refused : api.handle request world = ((.failure raised, calls), after)) :
    HttpApi.Refused request world after raised calls := by
  unfold HttpApi.handle at refused
  cases route : request.route with
  | health =>
    rw [route] at refused
    cases refused
  | register client payload salt userId =>
    rw [route] at refused
    exact HttpApi.register_refused route refused
  | login client payload =>
    rw [route] at refused
    exact HttpApi.login_refused route refused
  | user authorization content =>
    rw [route] at refused
    simp only [HttpApi.handleUser] at refused
    split at refused
    · cases refused
      exact .unchanged ..
    · split at refused
      · cases refused
        exact .unchanged ..
      · rcases HttpApi.limited_failed refused with ⟨seconds, counters, rfl, rfl, rfl⟩ | ⟨counters, failed⟩
        · exact .limit ..
        · exact HttpApi.dispatch_refused route failed

end Requests

section Samples

attribute [local instance] Text.asciiDatabase FloatArithmetic.rational

/-- Alice opens an account for savings. -/
def savingsWorld : HttpWorld ℚ :=
  (sampleApi.handle (bearing 0 "alice" (.createPortfolio "Savings" "EUR" ⟨2⟩)) sampleHttpWorld).2

def interruptedImport : HttpRequest ℚ Unit :=
  bearing 1 "alice" (.commitImport ⟨2⟩ (asciiBytes overflowingDocument) countingFresh)

/-- An import that stops at its second row has asked the parser and stored its first row. -/
theorem sample_refused_request :
    HttpApi.Refused interruptedImport savingsWorld (sampleApi.handle interruptedImport savingsWorld).2
        (.application .overflowError) [.parsed (asciiBytes overflowingDocument)] ∧
      savingsWorld.store.transactions = [] ∧
      (sampleApi.handle interruptedImport savingsWorld).2.store.transactions.map Transaction.externalId =
        ["first"] := by
  have ran : (sampleApi.handle interruptedImport savingsWorld).1 =
        (.failure (.application .overflowError), [.parsed (asciiBytes overflowingDocument)]) ∧
      (sampleApi.handle interruptedImport savingsWorld).2.store.transactions.map Transaction.externalId =
        ["first"] := by
    decide +kernel
  obtain ⟨raised, stored⟩ := ran
  exact ⟨refused_requests_change_nothing (Prod.ext raised rfl), rfl, stored⟩

end Samples
end LedgerLens

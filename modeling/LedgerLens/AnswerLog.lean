import LedgerLens.HttpAuthentication
import LedgerLens.ImportReports
import LedgerLens.ShortHistories

namespace LedgerLens
open Decimal (Context)
open TransactionImportService (commitOutcome commitRow)
variable {F : Type}

/-- What an insight and its snapshot have in common. -/
structure InsightRecord where
  id : UUID
  portfolioId : UUID
  asOf : Date
  summary : Option String
  generator : Option String
  modelName : Option String
  promptVersion : Option String
  generatedAt : DateTime
  deriving DecidableEq

def AnalysisSnapshot.record (snapshot : AnalysisSnapshot F) : InsightRecord where
  id := snapshot.id
  portfolioId := snapshot.portfolioId
  asOf := snapshot.asOf
  summary := snapshot.summary
  generator := snapshot.generator
  modelName := snapshot.modelName
  promptVersion := snapshot.promptVersion
  generatedAt := snapshot.generatedAt

def PortfolioInsight.record (insight : PortfolioInsight) (portfolioId : UUID) (fresh : Fresh) : InsightRecord where
  id := fresh.id
  portfolioId := portfolioId
  asOf := insight.asOf
  summary := some insight.summary
  generator := some insight.generator
  modelName := insight.modelName
  promptVersion := some insight.promptVersion
  generatedAt := fresh.now

/-- The portfolios that an answer reports as created. -/
def Request.createdPortfolios : Request F → Response F → List Portfolio
  | .createPortfolio .., .portfolio portfolio => [portfolio]
  | _, _ => []

/-- The transactions that an answer reports as created. -/
def Response.createdTransactions : Response F → List Transaction
  | .creation result => if result.created then [result.transaction] else []
  | .commit report => report.rows.filterMap TransactionImportRowResult.createdTransaction
  | _ => []

/-- The insights that an answer gives. -/
def Request.givenInsights : Request F → Response F → List InsightRecord
  | .generateInsight portfolioId _ _ _ _ fresh, .insight insight => [insight.record portfolioId fresh]
  | _, _ => []

/-- The store has grown by what an answer reports, and by nothing else. -/
structure GrownBy (request : Request F) (response : Response F) (before after : Store F) : Prop where
  portfolios : after.portfolios.entries =
    before.portfolios.entries ++ (request.createdPortfolios response).map fun portfolio => (portfolio.id, portfolio)
  transactions : after.transactions = before.transactions ++ response.createdTransactions
  snapshots : after.analysisSnapshots.map AnalysisSnapshot.record =
    before.analysisSnapshots.map AnalysisSnapshot.record ++ request.givenInsights response

theorem GrownBy.same {request : Request F} {response : Response F} {before after : Store F}
    (same : after = before) (noPortfolio : request.createdPortfolios response = [])
    (noTransaction : response.createdTransactions = []) (noInsight : request.givenInsights response = []) :
    GrownBy request response before after := by
  subst same
  exact ⟨by rw [noPortfolio, List.map_nil, List.append_nil], by rw [noTransaction, List.append_nil],
    by rw [noInsight, List.append_nil]⟩

/-- A row that is reported has stored what it reports. -/
theorem commitOutcome_stores {candidate : TransactionImportCandidate} {decision : Except Error TransactionCreation}
    {row : TransactionImportRowResult} (reported : commitOutcome candidate decision = .ok row) (store : Store F) :
    settleCreation decision store = store.extend row.createdTransaction.toList := by
  match decision with
  | .ok ⟨t, true⟩ =>
    cases reported
    rfl
  | .ok ⟨t, false⟩ =>
    cases reported
    exact store.extend_nil.symm
  | .error raised =>
    unfold commitOutcome at reported
    split at reported
    · cases reported
      exact store.extend_nil.symm
    · cases reported
      exact store.extend_nil.symm
    · cases reported
    · next same => cases same

section Services
variable [UnicodeDatabase] (ctx : Context) {ownerId portfolioId : UUID}

theorem commitRow_stores {candidate : TransactionImportCandidate} {fresh : Fresh} {world after : World F}
    {row : TransactionImportRowResult}
    (run : (commitRow ctx ownerId portfolioId candidate fresh).run world = (.ok row, after)) :
    after.store = world.store.extend row.createdTransaction.toList := by
  cases readable : candidate.readable with
  | none =>
    rw [commitRow_run_unread ctx ownerId portfolioId readable] at run
    cases run
    exact world.store.extend_nil.symm
  | some newTransaction =>
    rw [commitRow_run ctx ownerId portfolioId readable] at run
    obtain ⟨reported, rfl⟩ := Prod.mk.inj run
    exact commitOutcome_stores reported world.store

theorem commitRows_stores {candidates : List (TransactionImportCandidate × Nat)} {fresh : Nat → Fresh}
    {world after : World F} {rows : List TransactionImportRowResult}
    (run : (commitRows ctx ownerId portfolioId fresh candidates).run world = (.ok rows, after)) :
    after.store = world.store.extend (rows.filterMap TransactionImportRowResult.createdTransaction) := by
  induction candidates generalizing world rows with
  | nil =>
    obtain ⟨rows_nil, rfl⟩ := Prod.mk.inj run
    cases rows_nil
    exact world.store.extend_nil.symm
  | cons candidate rest ih =>
    obtain ⟨row, next, first, run⟩ := Program.bind_eq_ok.mp run
    obtain ⟨others, final, later, run⟩ := Program.bind_eq_ok.mp run
    cases run
    rw [ih later, commitRow_stores ctx first, Store.extend_extend]
    congr 1
    cases created : row.createdTransaction <;> simp [created]

theorem TransactionImportService.commit_stores {parser : TransactionCsvParser} {csvData : List UInt8}
    {fresh : Nat → Fresh} {world after : World F} {report : TransactionImportCommit}
    (run : (commit ctx parser ownerId portfolioId csvData fresh).run world = (.ok report, after)) :
    after.store = world.store.extend (report.rows.filterMap TransactionImportRowResult.createdTransaction) := by
  obtain ⟨_, owner, owned, run⟩ := Program.bind_eq_ok.mp run
  obtain ⟨candidates, read, parsed, run⟩ := Program.bind_eq_ok.mp run
  obtain ⟨rows, final, collected, run⟩ := Program.bind_eq_ok.mp run
  cases run
  have checks : ReadsStore (F := F) (assertOwned ownerId portfolioId) :=
    .bind (.read _) fun _ => .bind (.lift _) fun _ => .pure _
  have first := checks.step world
  rw [owned] at first
  have second := (callOutside_reads (.parsed csvData) (parser csvData)).step owner
  rw [parsed] at second
  have same : read.store = world.store := Eq.trans second first
  rw [commitRows_stores ctx collected, same]

variable [FloatArithmetic F]

theorem PortfolioInsightService.generate_stores {methodology : AnalyticsMethodology} {startDate endDate : Date}
    {marketData : MarketData} {generator : Option (InsightGenerator F)} {fresh : Fresh} {world after : World F}
    {insight : PortfolioInsight}
    (run : (generate ctx methodology ownerId portfolioId startDate endDate marketData generator fresh).run world =
      (.ok insight, after)) :
    ∃ snapshot : AnalysisSnapshot F, after.store = world.store.addSnapshot snapshot ∧
      snapshot.record = insight.record portfolioId fresh := by
  obtain ⟨analytics, next, analyzed, run⟩ := Program.bind_eq_ok.mp run
  obtain ⟨narrated, told, narration, run⟩ := Program.bind_eq_ok.mp run
  obtain ⟨_, final, added, run⟩ := Program.bind_eq_ok.mp run
  cases run
  cases added
  have read := (PortfolioAnalyticsService.analyze_reads (F := F) ctx methodology ownerId portfolioId startDate endDate
    marketData).step world
  rw [analyzed] at read
  have kept := (narrate_reads generator (buildInsightInput analytics)
    (generateDeterministicInsight analytics)).step next
  rw [narration] at kept
  have same : told.store = world.store := Eq.trans kept read
  exact ⟨_, congrArg (Store.addSnapshot · _) same, rfl⟩

/-- A call that succeeds adds to the store what its answer reports. -/
theorem serve_stores (wiring : Wiring) {call : Call F} {response : Response F} {world after : World F}
    (run : (serve ctx wiring call).run world = (.ok response, after)) :
    GrownBy call.request response world.store after.store := by
  obtain ⟨ownerId, request⟩ := call
  have reads {α : Type} {x : Service F α} (kept : ReadsStore x) {a : α} (run : x.run world = (.ok a, after)) :
      after.store = world.store := by
    have step := kept.step world
    rw [run] at step
    exact step
  cases request with
  | createPortfolio name baseCurrency id =>
    obtain ⟨portfolio, ran, rfl⟩ := Program.map_eq_ok run
    cases taken : world.store.portfolios.get? id with
    | some existing =>
      rw [PortfolioService.create_run_taken ownerId name baseCurrency world taken] at ran
      cases congrArg Prod.fst ran
    | none =>
      rw [PortfolioService.create_run_unused ownerId name baseCurrency world taken] at ran
      cases ran
      refine ⟨?_, rfl, (List.append_nil _).symm⟩
      have fresh := Dict.get?_eq_none.mp taken
      simp only [World.update_store, Store.addPortfolio, Dict.entries_set_of_fresh fresh]
      rfl
  | getPortfolio portfolioId =>
    obtain ⟨portfolio, ran, rfl⟩ := Program.map_eq_ok run
    exact .same (reads (PortfolioService.get_reads ..) ran) rfl rfl rfl
  | listPortfolios limit offset =>
    obtain ⟨page, ran, rfl⟩ := Program.map_eq_ok run
    exact .same (reads (PortfolioService.list_reads ..) ran) rfl rfl rfl
  | createTransaction portfolioId newTransaction fresh =>
    obtain ⟨result, ran, rfl⟩ := Program.map_eq_ok run
    rw [create_run] at ran
    obtain ⟨decided, rfl⟩ := Prod.mk.inj ran
    rw [decided, World.update_store]
    obtain ⟨transaction, created⟩ := result
    cases created with
    | false => exact .same rfl rfl rfl rfl
    | true => exact ⟨(List.append_nil _).symm, rfl, (List.append_nil _).symm⟩
  | listTransactions portfolioId =>
    obtain ⟨ledger, ran, rfl⟩ := Program.map_eq_ok run
    exact .same (reads (TransactionService.list_reads ..) ran) rfl rfl rfl
  | previewImport portfolioId csvData fresh =>
    obtain ⟨report, ran, rfl⟩ := Program.map_eq_ok run
    exact .same (reads (TransactionImportService.preview_reads ..) ran) rfl rfl rfl
  | commitImport portfolioId csvData fresh =>
    obtain ⟨report, ran, rfl⟩ := Program.map_eq_ok run
    rw [TransactionImportService.commit_stores ctx ran]
    exact ⟨(List.append_nil _).symm, rfl, (List.append_nil _).symm⟩
  | analyze portfolioId startDate endDate marketData =>
    obtain ⟨analytics, ran, rfl⟩ := Program.map_eq_ok run
    exact .same (reads (PortfolioAnalyticsService.analyze_reads ..) ran) rfl rfl rfl
  | generateInsight portfolioId startDate endDate marketData generator fresh =>
    obtain ⟨insight, ran, rfl⟩ := Program.map_eq_ok run
    obtain ⟨snapshot, stored, record⟩ := PortfolioInsightService.generate_stores ctx ran
    rw [stored]
    refine ⟨(List.append_nil _).symm, (List.append_nil _).symm, ?_⟩
    simp only [Store.addSnapshot, List.map_append, List.map_cons, List.map_nil, record]
    rfl
  | listSnapshots portfolioId limit offset =>
    obtain ⟨page, ran, rfl⟩ := Program.map_eq_ok run
    exact .same (reads (PortfolioInsightService.listSnapshots_reads ..) ran) rfl rfl rfl

omit [UnicodeDatabase] [FloatArithmetic F] in
/-- A service that reads a list for the owner of a portfolio. -/
theorem reads_ok {α : Type} {x : Portfolio → Service F α} {world after : World F} {a : α}
    (run : (do
      let portfolio ← PortfolioRepository.get portfolioId
      let owned ← Program.lift (requireOwned ownerId portfolioId portfolio)
      x owned : Service F α).run world = (.ok a, after)) :
    ∃ portfolio, world.store.portfolios.get? portfolioId = some portfolio ∧ portfolio.ownerId = ownerId ∧
      (x portfolio).run world = (.ok a, after) := by
  obtain ⟨found, next, looked, run⟩ := Program.bind_eq_ok.mp run
  cases looked
  obtain ⟨portfolio, next, checked, run⟩ := Program.bind_eq_ok.mp run
  obtain ⟨owned, rfl⟩ := Prod.mk.inj checked
  obtain ⟨stored, owner⟩ := requireOwned_eq_ok.mp owned
  exact ⟨portfolio, stored, owner, run⟩

end Services

/-- The order in which insights are listed. -/
def InsightRecord.newestFirst (record : InsightRecord) : ℤᵒᵈ ×ₗ UUIDᵒᵈ :=
  toLex (OrderDual.toDual record.generatedAt.instant, OrderDual.toDual record.id)

namespace HttpApi
variable {σ : Type} {api : HttpApi σ}

/-- The call of a service that has been answered in an exchange. -/
def reply (exchange : HttpRequest F σ × HttpResponse F) : Option (Request F × Response F) :=
  match exchange.1.route, exchange.2 with
  | .user _ (.valid call), .success _ (.service response) => some (call, response)
  | _, _ => none

/-- An import that has ended with an internal error. -/
def Interrupted (exchange : HttpRequest F σ × HttpResponse F) : Prop :=
  (∃ authorization portfolioId csvData fresh,
    exchange.1.route = .user authorization (.valid (.commitImport portfolioId csvData fresh))) ∧
    exchange.2.statusCode = 500

def createdPortfolios (seen : Exchanges F σ) : List Portfolio :=
  (seen.filterMap reply).flatMap fun given => given.1.createdPortfolios given.2

def createdTransactions (seen : Exchanges F σ) : List Transaction :=
  (seen.filterMap reply).flatMap fun given => given.2.createdTransactions

def givenInsights (seen : Exchanges F σ) : List InsightRecord :=
  (seen.filterMap reply).flatMap fun given => given.1.givenInsights given.2

/-- The store holds what the answers have reported, in their order. -/
structure Logged (seen : Exchanges F σ) (store : Store F) : Prop where
  portfolios : store.portfolios.entries = (createdPortfolios seen).map fun portfolio => (portfolio.id, portfolio)
  transactions : store.transactions = createdTransactions seen
  snapshots : store.analysisSnapshots.map AnalysisSnapshot.record = givenInsights seen

theorem Logged.next {seen : Exchanges F σ} {store after : Store F} (logged : Logged seen store)
    {exchange : HttpRequest F σ × HttpResponse F}
    (grown : ∀ given, reply exchange = some given → GrownBy given.1 given.2 store after)
    (kept : reply exchange = none → after = store) : Logged (seen ++ [exchange]) after := by
  cases outcome : reply exchange with
  | none =>
    have same : (seen ++ [exchange]).filterMap reply = seen.filterMap reply := by simp [outcome]
    rw [kept outcome]
    refine ⟨?_, ?_, ?_⟩
    · rw [createdPortfolios, same]
      exact logged.portfolios
    · rw [createdTransactions, same]
      exact logged.transactions
    · rw [givenInsights, same]
      exact logged.snapshots
  | some given =>
    have more : (seen ++ [exchange]).filterMap reply = seen.filterMap reply ++ [given] := by simp [outcome]
    obtain ⟨portfolios, transactions, snapshots⟩ := grown given outcome
    refine ⟨?_, ?_, ?_⟩
    · rw [portfolios, logged.portfolios, createdPortfolios, createdPortfolios, more, List.flatMap_append,
        List.map_append, List.flatMap_singleton]
    · rw [transactions, logged.transactions, createdTransactions, createdTransactions, more, List.flatMap_append,
        List.flatMap_singleton]
    · rw [snapshots, logged.snapshots, givenInsights, givenInsights, more, List.flatMap_append, List.flatMap_singleton]

variable [UnicodeDatabase] [FloatArithmetic F]

/-- What is done to the store under a header: a service has answered, or it has been called in vain, or none has been
called. -/
inductive OnStore (api : HttpApi σ) (account : Option User) (content : UserContent F) (store : Store F) :
    HttpResponse F → Store F → Prop
  | answered {user call response after} (status : Nat) : account = some user → content = .valid call →
      (serve api.ctx api.wiring ⟨user.id, call⟩).run { store := store } = (.ok response, after) →
      OnStore api account content store (.success status (.service response)) after.store
  | refused {user call raised after} : account = some user → content = .valid call →
      (serve api.ctx api.wiring ⟨user.id, call⟩).run { store := store } = (.error raised, after) →
      OnStore api account content store (.failure (.application raised)) after.store
  | uncalled (raised : HttpError) : OnStore api account content store (.failure raised) store

theorem OnStore.answer {account : Option User} {content : UserContent F} {store after : Store F} {status : Nat}
    {response : Response F} (step : OnStore api account content store (.success status (.service response)) after) :
    ∃ user call next, account = some user ∧ content = .valid call ∧
      (serve api.ctx api.wiring ⟨user.id, call⟩).run { store := store } = (.ok response, next) ∧
      after = next.store := by
  cases step with
  | answered _ found same served => exact ⟨_, _, _, found, same, served, rfl⟩

theorem handleUser_onStore (request : HttpRequest F σ) (authorization : Option (String × String))
    (content : UserContent F) (world : HttpWorld F) :
    OnStore api (api.currentUser request.now authorization world.users) content world.store
      (api.handleUser request authorization content world).1.1
      (api.handleUser request authorization content world).2.store := by
  unfold handleUser
  split
  · exact .uncalled _
  · next limit _ =>
    split
    · exact .uncalled _
    · next user found =>
      rw [found]
      rcases limited_cases api request.now (request.scripts 0) (api.policies.userRule limit) ("user:" ++ user.id.str)
        world (api.dispatch content user) with ⟨raised, _, ends⟩ | ⟨_, goes⟩
      · rw [ends]
        exact .uncalled _
      · rw [goes]
        cases content with
        | unreadable => exact .uncalled _
        | invalid limit => exact .uncalled _
        | valid call =>
          unfold dispatch callService
          rcases served : (serve api.ctx api.wiring ⟨user.id, call⟩).run { store := world.store } with
            ⟨raised | response, after⟩
          · simp only [served]
            exact .refused rfl rfl served
          · have response_eq : ∃ status, call.respond (.ok response) = .success status (.service response) := by
              cases call <;> exact ⟨_, rfl⟩
            obtain ⟨status, answer⟩ := response_eq
            simp only [served, answer]
            exact .answered status rfl rfl served

omit [UnicodeDatabase] [FloatArithmetic F] in
theorem limited_store {now : ℚ} {write : Write} {rule : RateLimitRule} {identifier : String}
    {handler : HttpWorld F → (HttpResponse F × List (OutsideCall F)) × HttpWorld F}
    (within : ∀ world, (handler world).2.store = world.store) (world : HttpWorld F) :
    (api.limited now write rule identifier world handler).2.store = world.store := by
  rcases limited_cases api now write rule identifier world handler with ⟨raised, _, ends⟩ | ⟨_, goes⟩
  · rw [ends]
  · rw [goes]
    exact within _

omit [UnicodeDatabase] [FloatArithmetic F] in
/-- Only the routes for users touch the store. -/
theorem register_store (request : HttpRequest F σ) (client : HttpClient) (payload : Option Credentials) (salt : σ)
    (userId : UUID) (world : HttpWorld F) :
    (api.register request client payload salt userId world).2.store = world.store := by
  unfold register
  cases payload with
  | none => rfl
  | some payload =>
    refine limited_store (fun world => ?_) world
    split <;> rfl

omit [UnicodeDatabase] [FloatArithmetic F] in
theorem login_store (request : HttpRequest F σ) (client : HttpClient) (payload : Option Credentials)
    (world : HttpWorld F) : (api.login request client payload world).2.store = world.store := by
  unfold login
  cases payload with
  | none => rfl
  | some payload =>
    refine limited_store (fun world => limited_store (fun world => ?_) world) world
    split <;> rfl

theorem handle_store {request : HttpRequest F σ}
    (other : ∀ authorization content, request.route ≠ .user authorization content) (world : HttpWorld F) :
    (api.handle request world).2.store = world.store := by
  unfold handle
  cases route : request.route with
  | health => rfl
  | register client payload salt userId => exact register_store ..
  | login client payload => exact login_store ..
  | user authorization content => exact absurd route (other authorization content)

theorem handle_onStore {request : HttpRequest F σ} {authorization : Option (String × String)} {content : UserContent F}
    (route : request.route = .user authorization content) (world : HttpWorld F) :
    OnStore api (api.currentUser request.now authorization world.users) content world.store
      (api.handle request world).1.1 (api.handle request world).2.store := by
  unfold handle
  rw [route]
  exact handleUser_onStore request authorization content world

/-- Where an answer comes from. -/
theorem handle_answered {request : HttpRequest F σ} {world : HttpWorld F} {given : Request F × Response F}
    (answer : reply (request, (api.handle request world).1.1) = some given) :
    ∃ authorization account after, request.route = .user authorization (.valid given.1) ∧
      api.currentUser request.now authorization world.users = some account ∧
      (serve api.ctx api.wiring ⟨account.id, given.1⟩).run { store := world.store } = (.ok given.2, after) ∧
      (api.handle request world).2.store = after.store := by
  unfold reply at answer
  split at answer
  · next authorization call status response route body =>
    cases answer
    have step : OnStore api _ _ _ _ _ := handle_onStore route world
    simp only at body
    rw [body] at step
    obtain ⟨account, _, after, found, same, served, stored⟩ := step.answer
    cases same
    exact ⟨authorization, account, after, route, found, served, stored⟩
  · cases answer

theorem OnStore.unanswered {account : Option User} {content : UserContent F} {store after : Store F}
    {response : HttpResponse F} (step : OnStore api account content store response after) {request : HttpRequest F σ}
    {authorization : Option (String × String)} (route : request.route = .user authorization content)
    (unanswered : reply (request, response) = none) (whole : ¬ Interrupted (request, response)) : after = store := by
  cases step with
  | uncalled raised => rfl
  | answered status found same served =>
    subst same
    simp [reply, route] at unanswered
  | refused found same served =>
    subst same
    rcases serve_failed api.ctx api.wiring served with kept | ⟨⟨portfolioId, csvData, fresh, isImport⟩, internal⟩
    · exact kept
    · refine absurd ⟨⟨authorization, portfolioId, csvData, fresh, ?_⟩, internal⟩ whole
      rw [route]
      exact congrArg _ (congrArg _ isImport)

/-- An exchange adds to the store what its answer reports. -/
theorem handle_grows {request : HttpRequest F σ} {world : HttpWorld F} {given : Request F × Response F}
    (answer : reply (request, (api.handle request world).1.1) = some given) :
    GrownBy given.1 given.2 world.store (api.handle request world).2.store := by
  obtain ⟨authorization, account, after, route, found, served, stored⟩ := handle_answered answer
  rw [stored]
  exact serve_stores api.ctx api.wiring served

/-- One without an answer leaves the store alone, unless an import has been interrupted. -/
theorem handle_keeps_store {request : HttpRequest F σ} {world : HttpWorld F}
    (unanswered : reply (request, (api.handle request world).1.1) = none)
    (whole : ¬ Interrupted (request, (api.handle request world).1.1)) :
    (api.handle request world).2.store = world.store := by
  by_cases user : ∃ authorization content, request.route = .user authorization content
  · obtain ⟨authorization, content, route⟩ := user
    exact (handle_onStore route world).unanswered route unanswered whole
  · exact handle_store (fun authorization content route => user ⟨authorization, content, route⟩) world

theorem Served.logged {initial world : HttpWorld F} {seen : Exchanges F σ} (served : Served api initial seen world)
    (empty : initial.store = {}) (whole : ∀ exchange ∈ seen, ¬ Interrupted exchange) : Logged seen world.store := by
  induction served with
  | start =>
    rw [empty]
    exact ⟨rfl, rfl, rfl⟩
  | @next seen world _ request ih =>
    obtain ⟨earlier, own⟩ := List.forall_mem_append.mp whole
    refine (ih earlier).next (fun given answer => handle_grows answer) fun unanswered => ?_
    exact handle_keeps_store unanswered (own _ (List.mem_singleton.mpr rfl))

theorem Served.sound {initial world : HttpWorld F} {seen : Exchanges F σ} (served : Served api initial seen world)
    (empty : initial.store = {}) : SoundStore world.store := by
  induction served with
  | start =>
    rw [empty]
    exact fun _ => .nil
  | @next seen world _ request ih =>
    refine handle_keeps (P := fun world => SoundStore world.store) (fun _ _ sound => sound)
      (fun _ _ _ sound => sound) ?_ ih
    intro account call authorization _ world sound
    exact ((serve_grows api.ctx api.wiring ⟨account.id, call⟩).step { store := world.store }).sound sound

/-- An answer that only reads says what has been reported before. -/
def Listed (seen : Exchanges F σ) (account : User) : Request F → Response F → Prop
  | .getPortfolio portfolioId, response => ∃ portfolio ∈ createdPortfolios seen,
    portfolio.id = portfolioId ∧ portfolio.ownerId = account.id ∧ response = .portfolio portfolio
  | .listPortfolios limit offset, response =>
    let own := (createdPortfolios seen).filter fun portfolio => portfolio.ownerId = account.id
    response = .portfolios ⟨pySlice own.reverse offset (offset + limit), own.length, limit, offset⟩
  | .listTransactions portfolioId, response =>
    response = .ledger (ledgerSorted (rowsOf portfolioId (createdTransactions seen)))
  | .listSnapshots portfolioId limit offset, response =>
    let own := (givenInsights seen).filter fun record => record.portfolioId = portfolioId
    ∃ items, items.map AnalysisSnapshot.record =
        pySlice (StableSort.sortOn InsightRecord.newestFirst own) offset (offset + limit) ∧
      response = .snapshots ⟨items, own.length, limit, offset⟩
  | _, _ => True

omit [UnicodeDatabase] in
theorem pySlice_map {α β : Type} (f : α → β) (xs : List α) (start stop : Int) :
    pySlice (xs.map f) start stop = (pySlice xs start stop).map f := by
  unfold pySlice
  simp only [List.length_map, List.map_drop, List.map_take]

theorem Logged.listed {seen : Exchanges F σ} {world after : World F} (logged : Logged seen world.store)
    {account : User} {call : Request F} {response : Response F}
    (run : (serve api.ctx api.wiring ⟨account.id, call⟩).run world = (.ok response, after)) :
    Listed seen account call response := by
  cases call with
  | getPortfolio portfolioId =>
    obtain ⟨portfolio, ran, rfl⟩ := Program.map_eq_ok run
    obtain ⟨found, next, looked, checked⟩ := Program.bind_eq_ok.mp ran
    cases looked
    obtain ⟨owned, rfl⟩ := Prod.mk.inj checked
    obtain ⟨stored, owner⟩ := requireOwned_eq_ok.mp owned
    have entry := Dict.get?_eq_some.mp stored
    rw [logged.portfolios] at entry
    obtain ⟨created, member, same⟩ := List.mem_map.mp entry
    cases same
    exact ⟨_, member, rfl, owner, rfl⟩
  | listPortfolios limit offset =>
    obtain ⟨page, ran, rfl⟩ := Program.map_eq_ok run
    cases ran
    have portfolios : world.store.portfolios.entries.map Prod.snd = createdPortfolios seen := by
      rw [logged.portfolios, List.map_map]
      exact List.map_id _
    simp only [Listed, ← portfolios, List.filter_reverse]
  | listTransactions portfolioId =>
    obtain ⟨ledger, ran, rfl⟩ := Program.map_eq_ok run
    obtain ⟨portfolio, _, _, read⟩ := reads_ok ran
    cases read
    rw [Listed, ← logged.transactions]
    rfl
  | listSnapshots portfolioId limit offset =>
    obtain ⟨page, ran, rfl⟩ := Program.map_eq_ok run
    obtain ⟨portfolio, _, _, read⟩ := reads_ok ran
    cases read
    have filtered : (givenInsights seen).filter (fun record => record.portfolioId = portfolioId) =
        (world.store.analysisSnapshots.filter fun snapshot => snapshot.portfolioId = portfolioId).map
          AnalysisSnapshot.record := by
      rw [← logged.snapshots, List.filter_map]
      rfl
    simp only [Listed, filtered, List.length_map, StableSort.sortOn_map, pySlice_map]
    exact ⟨_, rfl, rfl⟩
  | _ => trivial

end HttpApi

section Listings
variable [UnicodeDatabase] [FloatArithmetic F] {σ : Type} {api : HttpApi σ}

open HttpApi in
/-- The listings answer what has been answered before: while no import has been interrupted, the portfolios, the
transactions and the insights that are listed are those that earlier answers have reported as created, all of them and
no others. And no transaction of a portfolio is reported as created twice. -/
theorem listings_are_the_log {initial world : HttpWorld F} {seen : Exchanges F σ}
    (served : Served api initial seen world) (empty : initial.store = {})
    (whole : ∀ exchange ∈ seen, ¬ Interrupted exchange) :
    (∀ portfolioId, ((rowsOf portfolioId (createdTransactions seen)).map Transaction.externalId).Nodup) ∧
      ∀ request call response, reply (request, (api.handle request world).1.1) = some (call, response) →
        ∃ authorization account, request.route = .user authorization (.valid call) ∧
          api.currentUser request.now authorization world.users = some account ∧
          Listed seen account call response := by
  have logged := served.logged empty whole
  constructor
  · intro portfolioId
    have sound := (served.sound empty portfolioId).externalIds
    rwa [Store.rows, logged.transactions] at sound
  · intro request call response answer
    obtain ⟨authorization, account, after, route, found, run, _⟩ := handle_answered answer
    have fresh : Logged seen ({ store := world.store } : World F).store := logged
    exact ⟨authorization, account, route, found, fresh.listed run⟩

end Listings

section Samples

attribute [local instance] Text.asciiDatabase FloatArithmetic.rational

/-- Alice has two portfolios and works with one of them; Bob has a third, which is not shown to her. -/
def loggedRequests : List (HttpRequest ℚ Unit) :=
  [bearing 0 "alice" (.createPortfolio "Growth" "USD" ⟨7⟩),
    bearing 1 "bob" (.createPortfolio "Income" "EUR" ⟨8⟩),
    bearing 2 "alice" (.createPortfolio "Savings" "EUR" ⟨2⟩),
    bearing 3 "alice" (.commitImport ⟨2⟩ (asciiBytes depositDocument) countingFresh),
    bearing 4 "alice" (.createTransaction ⟨2⟩
      { externalId := "second", transactionType := .buy, occurredAt := sampleTime 0, symbol := some "A",
        quantity := some (.finite false 1 0), unitPrice := some (.finite false 10 0) } (shortFresh 3)),
    bearing 5 "alice" (.generateInsight ⟨2⟩ (sampleDay 0) (sampleDay 7) shortMarketData none (shortFresh 4)),
    bearing 6 "alice" (.listTransactions ⟨8⟩)]

def loggedExchanges : HttpApi.Exchanges ℚ Unit := (sampleApi.exchanges loggedRequests sampleHttpWorld).1

def loggedWorld : HttpWorld ℚ := (sampleApi.exchanges loggedRequests sampleHttpWorld).2

def shownAfterwards (call : Request ℚ) : HttpResponse ℚ := (sampleApi.handle (bearing 7 "alice" call) loggedWorld).1.1

/-- She is shown her portfolios, newest first, the ledger with the row that was imported, and the insight. -/
theorem sample_listing :
    (∃ account, HttpApi.Listed loggedExchanges account (.listPortfolios 20 0)
      (.portfolios ⟨[⟨⟨2⟩, ⟨1⟩, "Savings", "EUR", []⟩, ⟨⟨7⟩, ⟨1⟩, "Growth", "USD", []⟩], 2, 20, 0⟩)) ∧
    (∃ account, HttpApi.Listed loggedExchanges account (.listTransactions ⟨2⟩)
      (.ledger (loggedWorld.store.ledger ⟨2⟩))) ∧
    (∃ account, HttpApi.Listed loggedExchanges account (.listSnapshots ⟨2⟩ 20 0)
      (.snapshots ⟨loggedWorld.store.analysisSnapshots, 1, 20, 0⟩)) ∧
    (loggedWorld.store.ledger ⟨2⟩).map Transaction.externalId = ["first", "second"] ∧
    loggedWorld.store.analysisSnapshots.map AnalysisSnapshot.id = [⟨4⟩] := by
  -- One evaluation for all of it: the run is the same.
  have ran : loggedExchanges.map (fun exchange => exchange.2.statusCode) = [201, 201, 201, 200, 201, 200, 404] ∧
      (shownAfterwards (.listPortfolios 20 0) = .success 200 (.service (.portfolios
        ⟨[⟨⟨2⟩, ⟨1⟩, "Savings", "EUR", []⟩, ⟨⟨7⟩, ⟨1⟩, "Growth", "USD", []⟩], 2, 20, 0⟩)) ∧
      shownAfterwards (.listTransactions ⟨2⟩) = .success 200 (.service (.ledger (loggedWorld.store.ledger ⟨2⟩))) ∧
      shownAfterwards (.listSnapshots ⟨2⟩ 20 0) = .success 200 (.service (.snapshots
        ⟨loggedWorld.store.analysisSnapshots, 1, 20, 0⟩))) ∧
      (loggedWorld.store.ledger ⟨2⟩).map Transaction.externalId = ["first", "second"] ∧
      loggedWorld.store.analysisSnapshots.map AnalysisSnapshot.id = [⟨4⟩] := by
    decide +kernel
  obtain ⟨codes, ⟨portfolios, ledger, snapshots⟩, held⟩ := ran
  have whole : ∀ exchange ∈ loggedExchanges, ¬ HttpApi.Interrupted exchange := by
    rintro exchange member ⟨_, internal⟩
    have code : 500 ∈ loggedExchanges.map fun exchange => exchange.2.statusCode :=
      List.mem_map.mpr ⟨exchange, member, internal⟩
    rw [codes] at code
    exact absurd code (by decide)
  have served : HttpApi.Served sampleApi sampleHttpWorld loggedExchanges loggedWorld :=
    HttpApi.Served.start.exchanges loggedRequests
  have listed {call : Request ℚ} {response : Response ℚ}
      (answer : shownAfterwards call = .success 200 (.service response)) :
      ∃ account, HttpApi.Listed loggedExchanges account call response := by
    have given : HttpApi.reply (bearing 7 "alice" call, shownAfterwards call) = some (call, response) := by
      rw [answer]
      rfl
    obtain ⟨_, account, _, _, listed⟩ := (listings_are_the_log served rfl whole).2 _ _ _ given
    exact ⟨account, listed⟩
  exact ⟨listed portfolios, listed ledger, listed snapshots, held⟩

end Samples
end LedgerLens

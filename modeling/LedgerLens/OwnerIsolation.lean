import LedgerLens.OwnerBlindness
import LedgerLens.PortfolioFrames
import LedgerLens.Library.Noninterference

namespace LedgerLens
open Decimal (Context)
variable {F : Type}

/-- The portfolio a request is about. -/
def Request.portfolioId : Request F → Option UUID
  | .createPortfolio _ _ _ | .listPortfolios _ _ => none
  | .getPortfolio portfolioId | .createTransaction portfolioId _ _ | .listTransactions portfolioId
  | .previewImport portfolioId _ _ | .commitImport portfolioId _ _ | .analyze portfolioId _ _ _
  | .generateInsight portfolioId _ _ _ _ _ | .listSnapshots portfolioId _ _ => some portfolioId

/-- The id a request draws for a new portfolio. -/
def Request.newPortfolioId : Request F → Option UUID
  | .createPortfolio _ _ id => some id
  | _ => none

/-- An id that occurs nowhere in a store. -/
structure Store.Unused (store : Store F) (id : UUID) : Prop where
  portfolio : store.portfolios.get? id = none
  transactions : ∀ t ∈ store.transactions, t.portfolioId ≠ id
  analysisSnapshots : ∀ snapshot ∈ store.analysisSnapshots, snapshot.portfolioId ≠ id

/-- The ownership check stops every request for a portfolio the user does not own. -/
theorem owned_foreign {α : Type} {world : World F} {user portfolioId : UUID}
    (foreign : world.store.owns user portfolioId = false) (rest : Portfolio → Service F α) :
    (do
      let portfolio ← PortfolioRepository.get portfolioId
      let portfolio ← Program.lift (requireOwned user portfolioId portfolio)
      rest portfolio).run world = (.error (.portfolioNotFound portfolioId), world) := by
  rw [← Program.bind_assoc]
  exact Program.bind_error (Prod.ext (requireOwned_foreign foreign) rfl) rest

section Views
variable {store : Store F} {portfolio : Portfolio} {user : UUID}

theorem owns_addPortfolio (store : Store F) (portfolio : Portfolio) (user portfolioId : UUID) :
    (store.addPortfolio portfolio).owns user portfolioId =
      if portfolio.id = portfolioId then decide (portfolio.ownerId = user) else store.owns user portfolioId := by
  unfold Store.owns Store.addPortfolio
  rw [Dict.get?_set]
  split <;> rfl

theorem entries_addPortfolio (absent : store.portfolios.get? portfolio.id = none) :
    (store.addPortfolio portfolio).portfolios.entries = store.portfolios.entries ++ [(portfolio.id, portfolio)] :=
  Dict.entries_set_of_fresh (Dict.get?_eq_none.mp absent)

/-- Other users do not see a new portfolio. -/
theorem viewOf_addPortfolio_other (absent : store.portfolios.get? portfolio.id = none)
    (other : portfolio.ownerId ≠ user) (empty : portfolio.transactions = []) :
    (store.addPortfolio portfolio).viewOf user = store.viewOf user := by
  have owns : ∀ portfolioId, (store.addPortfolio portfolio).owns user portfolioId = store.owns user portfolioId := by
    intro portfolioId
    rw [owns_addPortfolio]
    split
    · next same => simp [Store.owns, ← same, absent, other]
    · rfl
  have rows : (store.addPortfolio portfolio).transactions = store.transactions := by simp [Store.addPortfolio, empty]
  have snapshots : (store.addPortfolio portfolio).analysisSnapshots = store.analysisSnapshots := rfl
  simp [Store.viewOf, owns, rows, snapshots, entries_addPortfolio absent, other]

/-- The owner sees an empty portfolio behind the others. -/
theorem viewOf_addPortfolio_owner (portfolio : Portfolio) (unused : store.Unused portfolio.id)
    (empty : portfolio.transactions = []) :
    (store.addPortfolio portfolio).viewOf portfolio.ownerId =
      { store.viewOf portfolio.ownerId with
        portfolios := (store.viewOf portfolio.ownerId).portfolios ++ [(portfolio.id, portfolio)] } := by
  have owns : ∀ portfolioId, portfolioId ≠ portfolio.id →
      (store.addPortfolio portfolio).owns portfolio.ownerId portfolioId = store.owns portfolio.ownerId portfolioId :=
    fun portfolioId other => by rw [owns_addPortfolio, if_neg (Ne.symm other)]
  have rows : (store.addPortfolio portfolio).transactions = store.transactions := by simp [Store.addPortfolio, empty]
  have snapshots : (store.addPortfolio portfolio).analysisSnapshots = store.analysisSnapshots := rfl
  simp only [Store.viewOf, rows, snapshots, entries_addPortfolio unused.portfolio, List.filter_append,
    OwnerView.mk.injEq]
  refine ⟨by simp, ?_, ?_⟩
  · exact List.filter_congr fun t member => owns _ (unused.transactions t member)
  · exact List.filter_congr fun snapshot member => owns _ (unused.analysisSnapshots snapshot member)

end Views

variable [UnicodeDatabase]

theorem PortfolioService.create_run_unused (ownerId : UUID) (name baseCurrency : String) {id : UUID}
    (world : World F) (unused : world.store.portfolios.get? id = none) :
    (create ownerId name baseCurrency id).run world =
      (.ok ⟨id, ownerId, name, Text.upper (Text.strip baseCurrency), []⟩,
        world.update fun store =>
          store.addPortfolio ⟨id, ownerId, name, Text.upper (Text.strip baseCurrency), []⟩) := by
  simp only [create, PortfolioRepository.add, Program.bind_run, Program.read_run, unused]
  rfl

theorem PortfolioService.create_run_taken (ownerId : UUID) (name baseCurrency : String) {id : UUID}
    (world : World F) {existing : Portfolio} (taken : world.store.portfolios.get? id = some existing) :
    (create ownerId name baseCurrency id).run world = (.error (.portfolioAlreadyExists id), world) := by
  simp only [create, PortfolioRepository.add, Program.bind_run, Program.read_run, taken]
  rfl

section Serving
variable [FloatArithmetic F] (ctx : Context) (wiring : Wiring) {call : Call F}

/-- A request for a portfolio the caller does not own fails like one for a missing portfolio, before
anything is parsed, fetched or written. -/
theorem serve_foreign {portfolioId : UUID} (about : call.request.portfolioId = some portfolioId) (world : World F)
    (foreign : world.store.owns call.ownerId portfolioId = false) :
    (serve ctx wiring call).run world = (.error (.portfolioNotFound portfolioId), world) := by
  obtain ⟨ownerId, request⟩ := call
  have stopped : ∀ {α : Type} {x : Service F α} (f : α → Response F),
      x.run world = (.error (.portfolioNotFound portfolioId), world) →
        (f <$> x).run world = (.error (.portfolioNotFound portfolioId), world) := by
    intro α x f failed
    rw [Program.map_run, failed]
    rfl
  cases request with
  | createPortfolio name baseCurrency id => cases about
  | listPortfolios limit offset => cases about
  | getPortfolio own => cases about; exact stopped _ (Prod.ext (requireOwned_foreign foreign) rfl)
  | createTransaction own newTransaction fresh => cases about; exact stopped _ (owned_foreign foreign _)
  | listTransactions own => cases about; exact stopped _ (owned_foreign foreign _)
  | previewImport own csvData fresh =>
    cases about
    exact stopped _ (Program.bind_error (owned_foreign foreign _) _)
  | commitImport own csvData fresh =>
    cases about
    exact stopped _ (Program.bind_error (owned_foreign foreign _) _)
  | analyze own startDate endDate marketData => cases about; exact stopped _ (owned_foreign foreign _)
  | generateInsight own startDate endDate marketData generator fresh =>
    cases about
    exact stopped _ (Program.bind_error (owned_foreign foreign _) _)
  | listSnapshots own limit offset => cases about; exact stopped _ (owned_foreign foreign _)

/-- A request about one portfolio writes to no other. -/
theorem serve_touches {portfolioId : UUID} (about : call.request.portfolioId = some portfolioId) :
    Program.Preserves (OnlyTouches portfolioId) (serve ctx wiring call) := by
  obtain ⟨ownerId, request⟩ := call
  cases request with
  | createPortfolio name baseCurrency id => cases about
  | listPortfolios limit offset => cases about
  | getPortfolio own => exact .map (PortfolioService.get_reads ..).touches _
  | createTransaction own newTransaction fresh => cases about; exact .map (TransactionService.create_touches ..) _
  | listTransactions own => exact .map (TransactionService.list_reads ..).touches _
  | previewImport own csvData fresh => exact .map (TransactionImportService.preview_reads ..).touches _
  | commitImport own csvData fresh => cases about; exact .map (TransactionImportService.commit_touches ..) _
  | analyze own startDate endDate marketData => exact .map (PortfolioAnalyticsService.analyze_reads ..).touches _
  | generateInsight own startDate endDate marketData generator fresh =>
    cases about
    exact .map (PortfolioInsightService.generate_touches ..) _
  | listSnapshots own limit offset => exact .map (PortfolioInsightService.listSnapshots_reads ..).touches _

/-- Apart from a new portfolio's id, a caller's answer depends on the caller's own data only. -/
theorem serve_blind (drawsNone : call.request.newPortfolioId = none) :
    Blind call.ownerId (serve ctx wiring call) := by
  obtain ⟨ownerId, request⟩ := call
  cases request with
  | createPortfolio name baseCurrency id => cases drawsNone
  | listPortfolios limit offset => exact .map (PortfolioService.list_blind ..) _
  | getPortfolio own => exact .map (PortfolioService.get_blind ..) _
  | createTransaction own newTransaction fresh => exact .map (TransactionService.create_blind ..) _
  | listTransactions own => exact .map (TransactionService.list_blind ..) _
  | previewImport own csvData fresh => exact .map (TransactionImportService.preview_blind ..) _
  | commitImport own csvData fresh => exact .map (TransactionImportService.commit_blind ..) _
  | analyze own startDate endDate marketData => exact .map (PortfolioAnalyticsService.analyze_blind ..) _
  | generateInsight own startDate endDate marketData generator fresh =>
    exact .map (PortfolioInsightService.generate_blind ..) _
  | listSnapshots own limit offset => exact .map (PortfolioInsightService.listSnapshots_blind ..) _

/-- The answer to one call together with the outside calls made for it, and the store afterwards. -/
def answer (call : Call F) (store : Store F) : (Except Error (Response F) × List (OutsideCall F)) × Store F :=
  let (response, after) := (serve ctx wiring call).run { store := store }
  ((response, after.calls), after.store)

/-- No call changes what another user sees. -/
theorem answer_respects {user : UUID} (other : call.ownerId ≠ user) (store : Store F) :
    (answer ctx wiring call store).2.viewOf user = store.viewOf user := by
  change ((serve ctx wiring call).run ⟨store, []⟩).2.store.viewOf user = store.viewOf user
  cases about : call.request.portfolioId with
  | some portfolioId =>
    cases owned : store.owns call.ownerId portfolioId with
    | false => rw [serve_foreign ctx wiring about ⟨store, []⟩ owned]
    | true =>
      have foreign : store.owns user portfolioId = false := by
        simp only [Store.owns, Option.any_eq_true, decide_eq_true_eq] at owned
        obtain ⟨portfolio, found, owner⟩ := owned
        simpa [Store.owns, found, owner] using other
      exact ((serve_touches ctx wiring about).step ⟨store, []⟩).viewOf foreign
  | none =>
    obtain ⟨ownerId, request⟩ := call
    cases request with
    | listPortfolios limit offset =>
      have reads := (PortfolioService.list_reads (F := F) ownerId limit offset).step ⟨store, []⟩
      simp only [serve, Program.map_run]
      rw [reads]
    | createPortfolio name baseCurrency id =>
      simp only [serve, Program.map_run]
      cases found : store.portfolios.get? id with
      | some existing => rw [PortfolioService.create_run_taken ownerId name baseCurrency ⟨store, []⟩ found]
      | none =>
        rw [PortfolioService.create_run_unused ownerId name baseCurrency ⟨store, []⟩ found]
        exact viewOf_addPortfolio_other found other rfl
    | _ => cases about

/-- The id the call draws, if it draws one, occurs nowhere in the store. -/
def DrawsUnused (call : Call F) (store : Store F) : Prop := ∀ id ∈ call.request.newPortfolioId, store.Unused id

/-- A caller gets the same answer from two stores that agree on the caller's data, and the stores
still agree afterwards. -/
theorem answer_consistent {store other : Store F} (same : store.viewOf call.ownerId = other.viewOf call.ownerId)
    (left : DrawsUnused call store) (right : DrawsUnused call other) :
    (answer ctx wiring call store).1 = (answer ctx wiring call other).1 ∧
      (answer ctx wiring call store).2.viewOf call.ownerId =
        (answer ctx wiring call other).2.viewOf call.ownerId := by
  cases drawn : call.request.newPortfolioId with
  | none =>
    have blind := serve_blind ctx wiring drawn
    have alike : Alike call.ownerId (⟨store, []⟩ : World F) ⟨other, []⟩ := ⟨same, rfl⟩
    have after := blind.state _ _ alike
    exact ⟨Prod.ext (blind.result _ _ alike) after.calls, after.view⟩
  | some id =>
    obtain ⟨ownerId, request⟩ := call
    cases request with
    | createPortfolio name baseCurrency id' =>
      have leftUnused := left id' rfl
      have rightUnused := right id' rfl
      simp only [answer, serve, Program.map_run]
      rw [PortfolioService.create_run_unused ownerId name baseCurrency ⟨store, []⟩ leftUnused.portfolio,
        PortfolioService.create_run_unused ownerId name baseCurrency ⟨other, []⟩ rightUnused.portfolio]
      refine ⟨rfl, ?_⟩
      simp only [World.update_store]
      let portfolio : Portfolio := ⟨id', ownerId, name, Text.upper (Text.strip baseCurrency), []⟩
      have first := viewOf_addPortfolio_owner portfolio leftUnused rfl
      have second := viewOf_addPortfolio_owner portfolio rightUnused rfl
      exact first.trans (same ▸ second.symm)
    | _ => cases drawn

/-- An id that nothing refers to stays so until a call draws it. -/
theorem answer_unused {store : Store F} {id : UUID} (unused : store.Unused id)
    (notDrawn : call.request.newPortfolioId ≠ some id) : (answer ctx wiring call store).2.Unused id := by
  change ((serve ctx wiring call).run ⟨store, []⟩).2.store.Unused id
  cases about : call.request.portfolioId with
  | some portfolioId =>
    cases owned : store.owns call.ownerId portfolioId with
    | false => rw [serve_foreign ctx wiring about ⟨store, []⟩ owned]; exact unused
    | true =>
      have different : portfolioId ≠ id := by
        rintro rfl
        simp [Store.owns, unused.portfolio] at owned
      have touched := (serve_touches ctx wiring about).step ⟨store, []⟩
      have rows := touched.transactions (fun other => other = id) (by simpa using different)
      have snapshots := touched.analysisSnapshots (fun other => other = id) (by simpa using different)
      refine ⟨by rw [touched.portfolios]; exact unused.portfolio, fun t member same => ?_,
        fun snapshot member same => ?_⟩
      · have kept := (List.mem_filter (p := fun t : Transaction => decide (t.portfolioId = id))).mpr
          ⟨member, decide_eq_true same⟩
        rw [rows] at kept
        exact unused.transactions t (List.mem_of_mem_filter kept) same
      · have kept := (List.mem_filter
          (p := fun snapshot : AnalysisSnapshot F => decide (snapshot.portfolioId = id))).mpr
          ⟨member, decide_eq_true same⟩
        rw [snapshots] at kept
        exact unused.analysisSnapshots snapshot (List.mem_of_mem_filter kept) same
  | none =>
    obtain ⟨ownerId, request⟩ := call
    cases request with
    | listPortfolios limit offset =>
      have reads := (PortfolioService.list_reads (F := F) ownerId limit offset).step ⟨store, []⟩
      simp only [serve, Program.map_run]
      rwa [reads]
    | createPortfolio name baseCurrency id' =>
      simp only [serve, Program.map_run]
      cases found : store.portfolios.get? id' with
      | some existing =>
        rw [PortfolioService.create_run_taken ownerId name baseCurrency ⟨store, []⟩ found]
        exact unused
      | none =>
        rw [PortfolioService.create_run_unused ownerId name baseCurrency ⟨store, []⟩ found]
        have other : ¬ id' = id := fun same => notDrawn (congrArg some same)
        refine ⟨?_, fun t member => ?_, unused.analysisSnapshots⟩
        · simp [Store.addPortfolio, Dict.get?_set, other, unused.portfolio]
        · simp only [World.update_store, Store.addPortfolio, List.append_nil] at member
          exact unused.transactions t member
    | _ => cases about

/-- The services as a machine; every call is observed with the outside calls it makes. -/
def services : Machine UUID (Store F) (Call F) (Except Error (Response F) × List (OutsideCall F)) where
  owner := Call.ownerId
  step := answer ctx wiring

/-- The calls draw distinct portfolio ids, none of which occurs in the store. -/
def FreshIds (calls : List (Call F)) (store : Store F) : Prop :=
  (calls.filterMap fun call => call.request.newPortfolioId).Nodup ∧
    ∀ call ∈ calls, DrawsUnused call store

omit [UnicodeDatabase] [FloatArithmetic F] in
theorem FreshIds.sublist {calls fewer : List (Call F)} {store : Store F} (fresh : FreshIds calls store)
    (sub : fewer.Sublist calls) : FreshIds fewer store :=
  ⟨fresh.1.sublist (sub.filterMap _), fun call member => fresh.2 call (sub.subset member)⟩

theorem FreshIds.tail {rest : List (Call F)} {store : Store F} (fresh : FreshIds (call :: rest) store) :
    FreshIds rest (answer ctx wiring call store).2 := by
  refine ⟨(fresh.sublist (List.sublist_cons_self call rest)).1, fun later member id drawn => ?_⟩
  refine answer_unused ctx wiring (fresh.2 later (List.mem_cons_of_mem _ member) id drawn) fun same => ?_
  have distinct := fresh.1
  rw [List.filterMap_cons, same] at distinct
  exact (List.nodup_cons.mp distinct).1 (List.mem_filterMap.mpr ⟨later, member, drawn⟩)

theorem services_unwinding :
    Machine.Unwinding (services ctx wiring) (fun user (store : Store F) => store.viewOf user) FreshIds where
  tail _ _ _ fresh := fresh.tail ctx wiring
  respects _ _ store other := answer_respects ctx wiring other store
  answer _ _ _ _ _ left right same :=
    (answer_consistent ctx wiring same (left.2 _ List.mem_cons_self) (right.2 _ List.mem_cons_self)).1
  consistent _ _ _ _ _ left right same :=
    (answer_consistent ctx wiring same (left.2 _ List.mem_cons_self) (right.2 _ List.mem_cons_self)).2

/-- Owner isolation: a call is answered from its caller's data alone, and leaves everyone else's as
it was; so what a user observes in a run does not depend on the other users' calls or data, and a
portfolio of someone else is as good as missing. -/
theorem owner_isolation :
    (∀ (call : Call F) (store other : Store F), DrawsUnused call store → DrawsUnused call other →
      store.viewOf call.ownerId = other.viewOf call.ownerId →
        (answer ctx wiring call store).1 = (answer ctx wiring call other).1 ∧
          (answer ctx wiring call store).2.viewOf call.ownerId =
            (answer ctx wiring call other).2.viewOf call.ownerId) ∧
    (∀ (call : Call F) (store : Store F) (user : UUID), call.ownerId ≠ user →
      (answer ctx wiring call store).2.viewOf user = store.viewOf user) ∧
    (∀ (user : UUID) (calls : List (Call F)) (store other : Store F),
      store.viewOf user = other.viewOf user → FreshIds calls store →
        FreshIds ((services ctx wiring).own user calls) other →
          (services ctx wiring).observations user calls store =
            (services ctx wiring).observations user ((services ctx wiring).own user calls) other) ∧
    (∀ (call : Call F) (portfolioId : UUID) (world : World F), call.request.portfolioId = some portfolioId →
      world.store.owns call.ownerId portfolioId = false →
        (serve ctx wiring call).run world = (.error (.portfolioNotFound portfolioId), world)) :=
  ⟨fun _ _ _ left right same => answer_consistent ctx wiring same left right,
    fun _ store _ other => answer_respects ctx wiring other store,
    fun _ _ _ _ same left right => (services_unwinding ctx wiring).observations_own same left right,
    fun _ _ _ about foreign => serve_foreign ctx wiring about _ foreign⟩

end Serving
end LedgerLens

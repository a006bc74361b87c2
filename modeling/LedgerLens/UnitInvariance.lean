import LedgerLens.RescaledRequests
import LedgerLens.RescaledValuations
import LedgerLens.ShortHistories

namespace LedgerLens
open Decimal (Context Rescaled)
open Checked (Parallel)
open Program (Mirrors)
open PortfolioInsightService (buildInsightInput snapshotMetrics)

/-- A generator that looks at nothing but what a snapshot keeps of its input. -/
def InsightGenerator.ReadsSnapshot {F : Type} (generator : InsightGenerator F) : Prop :=
  ∀ input input', snapshotMetrics input = snapshotMetrics input' → input.methodology = input'.methodology →
    generator.generate input = generator.generate input'

namespace Units
variable {ctx : Context} (units : Units ctx) {F : Type}

def input (input : InsightInput F) : InsightInput F :=
  { input with assetWeights := input.assetWeights.map units.assetWeight }

def outsideCall : OutsideCall F → OutsideCall F
  | .generated input => .generated (units.input input)
  | call => call

/-- Two worlds that differ in the units of their transactions, and of what has been asked outside. -/
structure SameWorld (world world' : World F) : Prop where
  portfolios : world'.store.portfolios = world.store.portfolios
  transactions : List.Forall₂ units.SameTransaction world.store.transactions world'.store.transactions
  snapshots : world'.store.analysisSnapshots = world.store.analysisSnapshots
  calls : world'.calls = world.calls.map units.outsideCall

variable [UnicodeDatabase]

structure SameResult (result result' : MarketDataResult) : Prop where
  priceBars : List.Forall₂ units.SameBar result.priceBars result'.priceBars
  stale : result'.stale = result.stale

/-- A market that quotes the same in the other units. -/
def SameMarket (marketData marketData' : MarketData) : Prop :=
  ∀ symbol startDate endDate,
    Parallel Eq units.SameResult (marketData symbol startDate endDate) (marketData' symbol startDate endDate)

/-- Requests that ask for the same in the one unit and in the other. -/
inductive SameRequest : Request F → Request F → Prop
  | createPortfolio (name baseCurrency : String) (id : UUID) :
    SameRequest (.createPortfolio name baseCurrency id) (.createPortfolio name baseCurrency id)
  | getPortfolio (portfolioId : UUID) : SameRequest (.getPortfolio portfolioId) (.getPortfolio portfolioId)
  | listPortfolios (limit offset : Int) : SameRequest (.listPortfolios limit offset) (.listPortfolios limit offset)
  | createTransaction (portfolioId : UUID) {newTransaction newTransaction' : NewTransaction} (fresh : Fresh)
    (asked : units.SameNewTransaction newTransaction newTransaction') (passes : newTransaction.PassesQuanta)
    (passes' : newTransaction'.PassesQuanta) :
    SameRequest (.createTransaction portfolioId newTransaction fresh)
      (.createTransaction portfolioId newTransaction' fresh)
  | listTransactions (portfolioId : UUID) : SameRequest (.listTransactions portfolioId) (.listTransactions portfolioId)
  | analyze (portfolioId : UUID) (startDate endDate : Date) {marketData marketData' : MarketData}
    (market : units.SameMarket marketData marketData') :
    SameRequest (.analyze portfolioId startDate endDate marketData) (.analyze portfolioId startDate endDate marketData')
  | generateInsight (portfolioId : UUID) (startDate endDate : Date) {marketData marketData' : MarketData}
    (market : units.SameMarket marketData marketData') (generator : Option (InsightGenerator F))
    (reads : ∀ asked ∈ generator, asked.ReadsSnapshot) (fresh : Fresh) :
    SameRequest (.generateInsight portfolioId startDate endDate marketData generator fresh)
      (.generateInsight portfolioId startDate endDate marketData' generator fresh)
  | listSnapshots (portfolioId : UUID) (limit offset : Int) :
    SameRequest (.listSnapshots portfolioId limit offset) (.listSnapshots portfolioId limit offset)

structure SameCall (call call' : Call F) : Prop where
  ownerId : call'.ownerId = call.ownerId
  request : units.SameRequest call.request call'.request

omit [UnicodeDatabase] in
/-- Answers that say the same in the one unit and in the other. -/
inductive SameResponse : Response F → Response F → Prop
  | portfolio (portfolio : Portfolio) : SameResponse (.portfolio portfolio) (.portfolio portfolio)
  | portfolios (page : PortfolioPage) : SameResponse (.portfolios page) (.portfolios page)
  | creation {t t' : Transaction} (same : units.SameTransaction t t') (created : Bool) :
    SameResponse (.creation ⟨t, created⟩) (.creation ⟨t', created⟩)
  | ledger {transactions transactions' : List Transaction}
    (same : List.Forall₂ units.SameTransaction transactions transactions') :
    SameResponse (.ledger transactions) (.ledger transactions')
  | analytics (analytics : PortfolioAnalytics F) :
    SameResponse (.analytics analytics) (.analytics (units.analytics analytics))
  | insight (insight : PortfolioInsight) : SameResponse (.insight insight) (.insight insight)
  | snapshots (page : AnalysisSnapshotPage F) : SameResponse (.snapshots page) (.snapshots page)

end Units

section Stores
variable {ctx : Context} {units : Units ctx} {F : Type} {world world' : World F}

/-- Ledgers are listed in the same order. -/
theorem Units.SameWorld.ledger (same : units.SameWorld world world') (portfolioId : UUID) :
    List.Forall₂ units.SameTransaction (world.store.ledger portfolioId) (world'.store.ledger portfolioId) := by
  have rows : List.Forall₂ units.SameTransaction (world.store.rows portfolioId) (world'.store.rows portfolioId) :=
    List.rel_filter (fun t t' head => by simp only [head.portfolioId]) same.transactions
  have keys : ∀ pair ∈ (world.store.rows portfolioId).zip (world'.store.rows portfolioId),
      pair.2.ledgerKey = pair.1.ledgerKey := fun pair member => ((List.forall₂_iff_zip.mp rows).2 member).key
  refine StableSort.forall₂_sortOn rows fun a left b right => ?_
  rw [keys a left, keys b right]

theorem Units.SameWorld.byExternalId (same : units.SameWorld world world') (portfolioId : UUID) (externalId : String) :
    Option.Rel units.SameTransaction (world.store.byExternalId portfolioId externalId)
      (world'.store.byExternalId portfolioId externalId) :=
  Checked.find?_forall₂ same.transactions fun t t' head => by rw [head.portfolioId, head.externalId]

theorem Units.SameWorld.addTransaction (same : units.SameWorld world world') {t t' : Transaction}
    (added : units.SameTransaction t t') :
    units.SameWorld (world.update fun store => store.addTransaction t)
      (world'.update fun store => store.addTransaction t') where
  portfolios := same.portfolios
  transactions := List.rel_append same.transactions (.cons added .nil)
  snapshots := same.snapshots
  calls := same.calls

theorem Units.SameWorld.addSnapshot (same : units.SameWorld world world') (snapshot : AnalysisSnapshot F) :
    units.SameWorld (world.update fun store => store.addSnapshot snapshot)
      (world'.update fun store => store.addSnapshot snapshot) where
  portfolios := same.portfolios
  transactions := same.transactions
  snapshots := congrArg (· ++ [snapshot]) same.snapshots
  calls := same.calls

theorem Units.SameWorld.addPortfolio (same : units.SameWorld world world') {portfolio : Portfolio}
    (empty : portfolio.transactions = []) :
    units.SameWorld (world.update fun store => store.addPortfolio portfolio)
      (world'.update fun store => store.addPortfolio portfolio) where
  portfolios := congrArg (Dict.set · portfolio.id portfolio) same.portfolios
  transactions := by
    simp only [World.update_store, Store.addPortfolio, empty, List.append_nil]
    exact same.transactions
  snapshots := same.snapshots
  calls := same.calls

theorem Units.SameWorld.record (same : units.SameWorld world world') (call : OutsideCall F) :
    units.SameWorld (world.record call) (world'.record (units.outsideCall call)) where
  portfolios := same.portfolios
  transactions := same.transactions
  snapshots := same.snapshots
  calls := by
    rw [World.record, World.record, same.calls, List.map_append]
    rfl

end Stores

section Insights
variable {ctx : Context} {units : Units ctx} {F : Type}

theorem largestWeight_rescaled (weights : List AssetWeight) :
    largestWeight (weights.map units.assetWeight) = (largestWeight weights).map units.assetWeight := by
  cases weights with
  | nil => rfl
  | cons weight rest =>
    have kept (largest : AssetWeight) :
        (rest.map units.assetWeight).foldl
            (fun largest weight => if largest.weight < weight.weight then weight else largest)
            (units.assetWeight largest) =
          units.assetWeight (rest.foldl
            (fun largest weight => if largest.weight < weight.weight then weight else largest) largest) := by
      induction rest generalizing largest with
      | nil => rfl
      | cons next rest ih =>
        rw [List.map_cons, List.foldl_cons, List.foldl_cons, ← ih, apply_ite units.assetWeight]
        rfl
    exact congrArg some (kept weight)

/-- The rules look at ratios. -/
theorem generateDeterministicInsight_rescaled [FloatArithmetic F] (analytics : PortfolioAnalytics F) :
    generateDeterministicInsight (units.analytics analytics) = generateDeterministicInsight analytics := by
  have concentration : concentrationFactor F (analytics.assetWeights.map units.assetWeight) =
      concentrationFactor F analytics.assetWeights := by
    rw [concentrationFactor, largestWeight_rescaled, concentrationFactor]
    cases largestWeight analytics.assetWeights <;> rfl
  simp only [generateDeterministicInsight, Units.analytics, concentration]
  rfl

theorem buildInsightInput_rescaled (analytics : PortfolioAnalytics F) :
    buildInsightInput (units.analytics analytics) = units.input (buildInsightInput analytics) := rfl

/-- Snapshots keep the weights, and no amounts. -/
theorem snapshotMetrics_rescaled (input : InsightInput F) :
    snapshotMetrics (units.input input) = snapshotMetrics input := by
  simp only [snapshotMetrics, Units.input, List.map_map]
  rfl

end Insights

section Services
variable {ctx : Context} {units : Units ctx} {F : Type}

/-- From worlds that differ in units only, two services mirror each other. -/
def Units.Mirrored {α β : Type} (units : Units ctx) (Q : α → β → Prop) (x : Service F α) (y : Service F β) : Prop :=
  ∀ world world', units.SameWorld world world' → Mirrors units.SameWorld Q x y world world'

theorem listForPortfolio_mirrored (portfolioId : UUID) :
    units.Mirrored (F := F) (List.Forall₂ units.SameTransaction) (TransactionRepository.listForPortfolio portfolioId)
      (TransactionRepository.listForPortfolio portfolioId) :=
  fun _ _ same => .read (same.ledger portfolioId) same

/-- What every service begins with. -/
theorem owned_mirrored {α β : Type} {Q : α → β → Prop} {ownerId portfolioId : UUID} {rest : Portfolio → Service F α}
    {rest' : Portfolio → Service F β} (follow : ∀ portfolio, units.Mirrored Q (rest portfolio) (rest' portfolio)) :
    units.Mirrored Q
      (PortfolioRepository.get portfolioId >>= fun portfolio =>
        Program.lift (requireOwned ownerId portfolioId portfolio) >>= rest)
      (PortfolioRepository.get portfolioId >>= fun portfolio =>
        Program.lift (requireOwned ownerId portfolioId portfolio) >>= rest') := by
  intro world world' same
  refine Mirrors.looked (by rw [same.portfolios]) fun portfolio => ?_
  refine (Mirrors.decided _ same).bind fun owned _ s t equal same => ?_
  subst equal
  exact follow owned s t same

variable [UnicodeDatabase]

theorem TransactionService.create_mirrored (ownerId portfolioId : UUID)
    {newTransaction newTransaction' : NewTransaction} (fresh : Fresh)
    (built : Parallel Eq units.SameTransaction (buildTransaction portfolioId newTransaction fresh.id fresh.now)
      (buildTransaction portfolioId newTransaction' fresh.id fresh.now)) :
    units.Mirrored (F := F)
      (fun creation creation' => units.SameTransaction creation.transaction creation'.transaction ∧
        creation'.created = creation.created)
      (TransactionService.create ctx ownerId portfolioId newTransaction fresh)
      (TransactionService.create ctx ownerId portfolioId newTransaction' fresh) := by
  refine owned_mirrored fun _ world world' same => ?_
  refine (Mirrors.lift built same).bind fun t t' s s' added same => ?_
  have checked : Parallel Eq (fun _ _ => t.Valid) (validateTransaction t) (validateTransaction t') := by
    rw [added.validate]
    cases run : validateTransaction t with
    | ok => exact .ok (validateTransaction_eq_ok.mp run)
    | error e => exact .error rfl
  refine (Mirrors.lift checked same).bind fun _ _ s s' valid same => ?_
  have sought : Mirrors units.SameWorld (Option.Rel units.SameTransaction)
      (TransactionRepository.getByExternalId portfolioId t.externalId)
      (TransactionRepository.getByExternalId portfolioId t'.externalId) s s' := by
    rw [added.externalId]
    exact .read (same.byExternalId portfolioId t.externalId) same
  refine sought.bind fun found found' s s' existing same => ?_
  cases existing with
  | some stored =>
    simp only [sameTransactionPayload_rescaled stored added valid, added.externalId]
    split
    · exact .pure ⟨stored, rfl⟩ same
    · exact .raise _ same
  | none =>
    refine (listForPortfolio_mirrored portfolioId s s' same).bind fun ledger ledger' s s' listed same => ?_
    have derived := derivePositions_rescaled (List.rel_append listed (.cons added .nil))
    refine (Mirrors.lift derived same).bind fun _ _ s s' _ same => ?_
    have written : Mirrors units.SameWorld Eq (TransactionRepository.add t) (TransactionRepository.add t') s s' :=
      .modify (same.addTransaction added)
    exact written.bind fun _ _ s s' _ same => .pure ⟨added, rfl⟩ same

variable [FloatArithmetic F] {marketData marketData' : MarketData} (market : units.SameMarket marketData marketData')
include market

omit [FloatArithmetic F] in
theorem fetchAll_mirrored (symbols : List String) (startDate endDate : Date) :
    units.Mirrored (F := F) (List.Forall₂ units.SameResult) (fetchAll marketData symbols startDate endDate)
      (fetchAll marketData' symbols startDate endDate) := by
  intro world world' same
  refine Mirrors.bind (Mirrors.modify ⟨same.portfolios, same.transactions, same.snapshots, ?_⟩)
    fun _ _ s s' _ same => .lift ?_ same
  · simp only [same.calls, List.map_append, List.map_map]
    rfl
  · exact .mapM (List.forall₂_same.mpr fun _ _ => rfl) fun symbol _ equal => equal ▸ market symbol startDate endDate

omit market [FloatArithmetic F] in
/-- The prices of an analysis. -/
theorem fetchedPrices_rescaled (symbols : List String) {results results' : List MarketDataResult}
    (same : List.Forall₂ units.SameResult results results') :
    ((symbols.zip results).foldl (fun bySymbol (symbol, result) => bySymbol.set symbol result.priceBars)
      Dict.empty).Related (List.Forall₂ units.SameBar)
    ((symbols.zip results').foldl (fun bySymbol (symbol, result) => bySymbol.set symbol result.priceBars)
      Dict.empty) := by
  have filled : ∀ prices prices' : Dict String (List PriceBar), prices.Related (List.Forall₂ units.SameBar) prices' →
      ((symbols.zip results).foldl (fun bySymbol (symbol, result) => bySymbol.set symbol result.priceBars)
        prices).Related (List.Forall₂ units.SameBar)
      ((symbols.zip results').foldl (fun bySymbol (symbol, result) => bySymbol.set symbol result.priceBars)
        prices') := by
    induction same generalizing symbols with
    | nil => cases symbols <;> exact fun _ _ related => related
    | @cons result result' rest rest' head _ ih =>
      cases symbols with
      | nil => exact fun _ _ related => related
      | cons symbol symbols => exact fun prices prices' related => ih symbols _ _ (related.set symbol head.priceBars)
  exact filled .empty .empty Dict.related_empty

omit [FloatArithmetic F] [UnicodeDatabase] market in
theorem asUnavailable_parallel {α β : Type} {R : α → β → Prop} {x : Except Error α} {y : Except Error β}
    (parallel : Parallel Eq R x y) : Parallel Eq R (asUnavailable x) (asUnavailable y) := by
  cases parallel with
  | ok related => exact .ok related
  | @error e e' equal =>
    subst equal
    cases e <;> exact .error rfl

theorem PortfolioAnalyticsService.analyze_mirrored (methodology : AnalyticsMethodology) (ownerId portfolioId : UUID)
    (startDate endDate : Date) :
    units.Mirrored (F := F) (fun analytics analytics' => analytics' = units.analytics analytics)
      (PortfolioAnalyticsService.analyze ctx methodology ownerId portfolioId startDate endDate marketData)
      (PortfolioAnalyticsService.analyze ctx methodology ownerId portfolioId startDate endDate marketData') := by
  refine owned_mirrored fun _ world world' same => ?_
  refine (listForPortfolio_mirrored portfolioId world world' same).bind fun ledger ledger' s s' listed same => ?_
  split
  · exact .raise _ same
  · have required := asUnavailable_parallel (requiredPriceSymbols_rescaled startDate endDate listed)
    refine (Mirrors.lift required same).bind fun symbols _ s s' equal same => ?_
    subst equal
    split
    · exact .raise _ same
    · refine (fetchAll_mirrored market symbols startDate endDate s s' same).bind
        fun results results' s s' fetched same => ?_
      have valued := asUnavailable_parallel (buildPortfolioValuation_rescaled (F := F) listed
        (fetchedPrices_rescaled symbols fetched) startDate endDate)
      refine (Mirrors.lift valued same).bind fun valuation _ s s' scaled same => ?_
      subst scaled
      have stale : results'.any MarketDataResult.stale = results.any MarketDataResult.stale := by
        clear * - fetched
        induction fetched with
        | nil => rfl
        | cons head _ ih => rw [List.any_cons, List.any_cons, head.stale, ih]
      rw [stale]
      exact .lift (measure_rescaled methodology valuation _) same

omit market [UnicodeDatabase] [FloatArithmetic F] in
theorem callOutside_mirrored {α : Type} (call : OutsideCall F) (answer : Except Error α) :
    units.Mirrored Eq (callOutside call answer) (callOutside (units.outsideCall call) answer) := by
  intro world world' same
  exact Mirrors.bind (Mirrors.modify (same.record call)) fun _ _ s s' _ same => .decided _ same

omit market [FloatArithmetic F] in
theorem PortfolioInsightService.narrate_mirrored {generator : Option (InsightGenerator F)}
    (reads : ∀ asked ∈ generator, asked.ReadsSnapshot) (input : InsightInput F) (insight : PortfolioInsight) :
    units.Mirrored Eq (PortfolioInsightService.narrate generator input insight)
      (PortfolioInsightService.narrate generator (units.input input) insight) := by
  cases generator with
  | none => exact fun _ _ same => .pure rfl same
  | some generator =>
    intro world world' same
    have answer : generator.generate (units.input input) = generator.generate input :=
      reads generator rfl _ _ (snapshotMetrics_rescaled input) rfl
    have asked : Mirrors units.SameWorld Eq
        (do
          let generated ← callOutside (.generated input) (generator.generate input)
          Program.lift (validateGeneratedInsight generated)
          return generated)
        (do
          let generated ← callOutside (.generated (units.input input)) (generator.generate (units.input input))
          Program.lift (validateGeneratedInsight generated)
          return generated) world world' := by
      rw [answer]
      refine (callOutside_mirrored (.generated input) _ world world' same).bind fun generated _ s s' equal same => ?_
      subst equal
      refine (Mirrors.decided _ same).bind fun _ _ s s' _ same => .pure rfl same
    refine asked.attempt.bind fun attempted attempted' s s' alike same => ?_
    cases alike with
    | ok equal =>
      subst equal
      exact .pure rfl same
    | error _ => exact .pure rfl same

theorem PortfolioInsightService.generate_mirrored (methodology : AnalyticsMethodology) (ownerId portfolioId : UUID)
    (startDate endDate : Date) {generator : Option (InsightGenerator F)}
    (reads : ∀ asked ∈ generator, asked.ReadsSnapshot) (fresh : Fresh) :
    units.Mirrored Eq
      (PortfolioInsightService.generate ctx methodology ownerId portfolioId startDate endDate marketData generator
        fresh)
      (PortfolioInsightService.generate ctx methodology ownerId portfolioId startDate endDate marketData' generator
        fresh) := by
  intro world world' same
  refine (PortfolioAnalyticsService.analyze_mirrored market methodology ownerId portfolioId startDate endDate world
    world' same).bind fun analytics _ s s' scaled same => ?_
  subst scaled
  simp only [buildInsightInput_rescaled, generateDeterministicInsight_rescaled, snapshotMetrics_rescaled]
  refine (PortfolioInsightService.narrate_mirrored reads _ _ s s' same).bind fun insight _ s s' equal same => ?_
  subst equal
  have stored : ∀ snapshot : AnalysisSnapshot F, Mirrors units.SameWorld Eq (AnalysisSnapshotRepository.add snapshot)
      (AnalysisSnapshotRepository.add snapshot) s s' := fun snapshot => .modify (same.addSnapshot snapshot)
  exact (stored _).bind fun _ _ s s' _ same => .pure rfl same

end Services

section Runs
variable {ctx : Context} {F : Type} [UnicodeDatabase] [FloatArithmetic F]

/-- Where digits are not limited, all units are as good. -/
def Units.unlimited (money : ℚ) (shares : String → ℚ) (money_pos : 0 < money)
    (shares_pos : ∀ symbol, 0 < shares symbol) : Units .exact where
  money := money
  shares := shares
  money_scales := Context.exact_scales money_pos
  shares_scales symbol := Context.exact_scales (shares_pos symbol)

/-- Where so many digits are kept, units can be changed by powers of ten. -/
def Units.powersOfTen (precision : ℕ) (money : ℤ) (shares : String → ℤ) : Units (.rounded precision) where
  money := 10 ^ money
  shares symbol := 10 ^ shares symbol
  money_scales := Context.rounded_scales precision money
  shares_scales symbol := Context.rounded_scales precision (shares symbol)

theorem serve_mirrored (units : Units ctx) (wiring : Wiring) {call call' : Call F} (same : units.SameCall call call') :
    units.Mirrored units.SameResponse (serve ctx wiring call) (serve ctx wiring call') := by
  obtain ⟨ownerId, request⟩ := call
  obtain ⟨ownerId', request'⟩ := call'
  obtain ⟨owner, asked⟩ := same
  simp only at owner asked
  subst owner
  intro world world' start
  cases asked with
  | createPortfolio name baseCurrency id =>
    refine Mirrors.map (Q := Eq) ?_ fun portfolio _ equal => equal ▸ .portfolio portfolio
    refine Mirrors.bind (Q := Eq) ?_ fun _ _ s s' _ same => .pure rfl same
    refine Mirrors.looked (by rw [start.portfolios]) fun existing => ?_
    split
    · exact .raise _ start
    · exact .modify (start.addPortfolio rfl)
  | getPortfolio portfolioId =>
    refine Mirrors.map (Q := Eq) ?_ fun portfolio _ equal => equal ▸ .portfolio portfolio
    exact Mirrors.looked (by rw [start.portfolios]) fun portfolio => .decided _ start
  | listPortfolios limit offset =>
    refine Mirrors.map (Q := Eq) ?_ fun page _ equal => equal ▸ .portfolios page
    refine Mirrors.looked (by rw [start.portfolios]) fun items => ?_
    exact Mirrors.looked (by rw [start.portfolios]) fun total => .pure rfl start
  | createTransaction portfolioId fresh asked passes passes' =>
    have built := buildTransaction_rescaled asked passes passes' portfolioId fresh.id fresh.now
    refine (TransactionService.create_mirrored ownerId' portfolioId fresh built world world' start).map ?_
    rintro ⟨t, created⟩ ⟨t', created'⟩ ⟨same, equal⟩
    simp only at same equal
    subst equal
    exact .creation same created'
  | listTransactions portfolioId =>
    refine Mirrors.map ?_ fun transactions transactions' listed => .ledger listed
    exact owned_mirrored (fun _ => listForPortfolio_mirrored portfolioId) world world' start
  | analyze portfolioId startDate endDate market =>
    refine (PortfolioAnalyticsService.analyze_mirrored market wiring.methodology ownerId' portfolioId startDate endDate
      world world' start).map fun analytics _ scaled => ?_
    subst scaled
    exact .analytics analytics
  | generateInsight portfolioId startDate endDate market generator reads fresh =>
    exact (PortfolioInsightService.generate_mirrored market wiring.methodology ownerId' portfolioId startDate endDate
      reads fresh world world' start).map fun insight _ equal => equal ▸ .insight insight
  | listSnapshots portfolioId limit offset =>
    refine Mirrors.map (Q := Eq) ?_ fun page _ equal => equal ▸ .snapshots page
    refine owned_mirrored (fun _ world world' start => ?_) world world' start
    refine Mirrors.looked (by rw [start.snapshots]) fun items => ?_
    exact Mirrors.looked (by rw [start.snapshots]) fun total => .pure rfl start

/-- A run in other units answers every request as the run in these units does, with the amounts in the other units:
the same refusals, the same returns, ratios, weights, insights and snapshots. Of a transaction it is asked that its
amounts pass the quanta in both units; where they do not, it is not built. -/
theorem units_do_not_matter (units : Units ctx) (wiring : Wiring) {world world' : World F}
    (start : units.SameWorld world world') {calls calls' : List (Call F)}
    (same : List.Forall₂ units.SameCall calls calls') :
    (List.Forall₂ (Parallel Eq units.SameResponse) (Program.outcomes (serve ctx wiring) calls world).1
        (Program.outcomes (serve ctx wiring) calls' world').1 ∧
      units.SameWorld (Program.outcomes (serve ctx wiring) calls world).2
        (Program.outcomes (serve ctx wiring) calls' world').2) ∧
    ∀ portfolioId newTransaction (fresh : Fresh) t,
      buildTransaction portfolioId newTransaction fresh.id fresh.now = .ok t → newTransaction.PassesQuanta :=
  ⟨Mirrors.outcomes same (fun _ _ world world' same => serve_mirrored units wiring same world world') start,
    fun _ _ _ _ built => passesQuanta_of_built built⟩

end Runs

section Samples

attribute [local instance] Text.asciiDatabase FloatArithmetic.rational

def splitTrade (quantity unitPrice : Nat) : NewTransaction where
  externalId := "first"
  transactionType := .buy
  occurredAt := sampleTime 0
  symbol := some "A"
  quantity := some (.finite false quantity 0)
  unitPrice := some (.finite false unitPrice 0)

def splitMarket (price : Nat) : MarketData := fun _ _ _ =>
  .ok { priceBars := [⟨"A", sampleDay 0, .finite false price 0⟩] }

def splitCalls (quantity unitPrice : Nat) : List (Call ℚ) :=
  [⟨⟨1⟩, .createPortfolio "Savings" "USD" ⟨2⟩⟩,
    ⟨⟨1⟩, .createTransaction ⟨2⟩ (splitTrade quantity unitPrice) (shortFresh 3)⟩,
    ⟨⟨1⟩, .analyze ⟨2⟩ (sampleDay 0) (sampleDay 7) (splitMarket unitPrice)⟩]

theorem passesQuantum_whole {n : Nat} (places : Nat) (fits : n * 10 ^ places < 10 ^ defaultPrecision) :
    PassesQuantum (-places) (.finite false n 0) := fun _ =>
  ⟨.finite false (n * 10 ^ places) (-places), ⟨false, _, rfl, fits⟩, by simp [Decimal.value]⟩

theorem splitTrade_passes {quantity unitPrice : Nat} (few : quantity < 1000) (cheap : unitPrice < 1000) :
    (splitTrade quantity unitPrice).PassesQuanta where
  quantity := by
    rintro _ ⟨⟩
    exact passesQuantum_whole 12 (by unfold defaultPrecision; omega)
  unitPrice := by
    rintro _ ⟨⟩
    exact passesQuantum_whole 8 (by unfold defaultPrecision; omega)
  cashAmount := by rintro _ ⟨⟩
  fees := passesQuantum_whole 8 (by decide)

/-- The calls for so many shares at a price, in units in which there are other numbers of both. -/
theorem splitCalls_same {ctx : Context} (units : Units ctx) {quantity quantity' unitPrice unitPrice' : Nat}
    (shares : (quantity' : ℚ) = units.shares "A" * quantity) (price : (unitPrice' : ℚ) = units.price "A" * unitPrice)
    (few : quantity < 1000) (cheap : unitPrice < 1000) (few' : quantity' < 1000) (cheap' : unitPrice' < 1000) :
    List.Forall₂ units.SameCall (splitCalls quantity unitPrice) (splitCalls quantity' unitPrice') := by
  have whole (n : Nat) : (Decimal.finite false n 0).value = n := by simp [Decimal.value]
  have upper : Text.upper "A" = "A" := by decide
  have symbol : (splitTrade quantity unitPrice).normalizedSymbol.getD "" = "A" :=
    (by decide : Text.upper (Text.strip "A") = "A")
  have sharesRescaled : Rescaled (units.shares "A") (.finite false quantity 0) (.finite false quantity' 0) :=
    ⟨rfl, by rw [whole, whole, shares]⟩
  have priceRescaled : Rescaled (units.price "A") (.finite false unitPrice 0) (.finite false unitPrice' 0) :=
    ⟨rfl, by rw [whole, whole, price]⟩
  have fees : Rescaled units.money (.finite false 0 0) (.finite false 0 0) := ⟨rfl, by simp [Decimal.value]⟩
  have asked : units.SameNewTransaction (splitTrade quantity unitPrice) (splitTrade quantity' unitPrice') :=
    ⟨rfl, by rw [symbol]; exact .some sharesRescaled, by rw [symbol]; exact .some priceRescaled, .none, fees⟩
  have market : units.SameMarket (splitMarket unitPrice) (splitMarket unitPrice') := fun _ _ _ =>
    .ok ⟨.cons ⟨rfl, by rw [upper]; exact priceRescaled⟩ .nil, rfl⟩
  exact .cons ⟨rfl, .createPortfolio _ _ _⟩ (.cons
    ⟨rfl, .createTransaction _ _ asked (splitTrade_passes few cheap) (splitTrade_passes few' cheap')⟩
    (.cons ⟨rfl, .analyze _ _ _ market⟩ .nil))

def stockSplit : Units (.rounded 28) := .powersOfTen 28 0 fun _ => 1

theorem sevenThirds_pos : (0 : ℚ) < 7 / 3 := by norm_num

theorem oneShare_pos (_ : String) : (0 : ℚ) < 1 := by norm_num

def redenomination : Units .exact := .unlimited (7 / 3) (fun _ => 1) sevenThirds_pos oneShare_pos

/-- One share at ten, and ten shares at one; and a share at three, in a currency in which it costs seven. -/
theorem sample_stock_split :
    List.Forall₂ (Parallel Eq stockSplit.SameResponse)
        (Program.outcomes (serve (.rounded 28) shortWiring) (splitCalls 1 10) {}).1
        (Program.outcomes (serve (.rounded 28) shortWiring) (splitCalls 10 1) {}).1 ∧
      List.Forall₂ (Parallel Eq redenomination.SameResponse)
        (Program.outcomes (serve .exact shortWiring) (splitCalls 1 3) {}).1
        (Program.outcomes (serve .exact shortWiring) (splitCalls 1 7) {}).1 ∧
      (Program.outcomes (serve .exact shortWiring) (splitCalls 1 7) {}).1.map Except.isOk = [true, true, true] := by
  have start : stockSplit.SameWorld (F := ℚ) {} {} := ⟨rfl, .nil, rfl, rfl⟩
  have start' : redenomination.SameWorld (F := ℚ) {} {} := ⟨rfl, .nil, rfl, rfl⟩
  have calls : List.Forall₂ stockSplit.SameCall (splitCalls 1 10) (splitCalls 10 1) :=
    splitCalls_same stockSplit (by norm_num [stockSplit, Units.powersOfTen])
      (by norm_num [stockSplit, Units.powersOfTen, Units.price]) (by decide) (by decide) (by decide) (by decide)
  have calls' : List.Forall₂ redenomination.SameCall (splitCalls 1 3) (splitCalls 1 7) :=
    splitCalls_same redenomination (by norm_num [redenomination, Units.unlimited])
      (by norm_num [redenomination, Units.unlimited, Units.price]) (by decide) (by decide) (by decide) (by decide)
  exact ⟨(units_do_not_matter stockSplit shortWiring start calls).1.1,
    (units_do_not_matter redenomination shortWiring start' calls').1.1, by decide +kernel⟩

end Samples
end LedgerLens

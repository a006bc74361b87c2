import Mathlib.Algebra.BigOperators.Ring.List
import LedgerLens.CashConservation

namespace LedgerLens
open Decimal (Context)
open RunningSum (total)

/-- Every position is positive and has a positive price. -/
def PricedPositions (price : String → Option ℚ) (positions : Dict String ℚ) : Prop :=
  ∀ entry ∈ activePositions positions, 0 < entry.2 * (price entry.1).getD 0

theorem PricedPositions.marketValue_nonneg {price : String → Option ℚ} {positions : Dict String ℚ}
    (priced : PricedPositions price positions) : 0 ≤ marketValue price positions :=
  List.sum_nonneg fun value listed => by
    obtain ⟨entry, member, rfl⟩ := List.mem_map.mp listed
    exact (priced entry member).le

theorem PricedPositions.le_marketValue {price : String → Option ℚ} {positions : Dict String ℚ}
    (priced : PricedPositions price positions) {entry : String × ℚ} (member : entry ∈ activePositions positions) :
    entry.2 * (price entry.1).getD 0 ≤ marketValue price positions := by
  refine List.single_le_sum (fun value listed => ?_) _ (List.mem_map_of_mem member)
  obtain ⟨other, held, rfl⟩ := List.mem_map.mp listed
  exact (priced other held).le

/-- Only an account with nothing in it is worth nothing. -/
theorem PricedPositions.emptied {price : String → Option ℚ} {account : Account}
    (priced : PricedPositions price account.positions) (solvent : 0 ≤ account.cashBalance)
    (worthless : account.cashBalance + marketValue price account.positions ≤ 0) :
    account.cashBalance = 0 ∧ activePositions account.positions = [] := by
  refine ⟨by linarith [priced.marketValue_nonneg], ?_⟩
  by_contra holding
  obtain ⟨entry, active⟩ := List.exists_mem_of_ne_nil _ holding
  have value := priced entry active
  linarith [priced.le_marketValue active]

section Weights
variable (price : String → Option ℚ) (positions : Dict String ℚ) (totalValue : ℚ)

theorem weightsOf_perm : (weightsOf price positions totalValue).Perm ((activePositions positions).map fun entry =>
    ⟨entry.1, entry.2 * (price entry.1).getD 0, entry.2 * (price entry.1).getD 0 / totalValue⟩) := by
  refine ((StableSort.sortOn_perm _ _).map _).trans ?_
  rw [List.map_map]
  exact .refl _

theorem mem_weightsOf {weight : AssetWeight} : weight ∈ weightsOf price positions totalValue ↔
    ∃ entry ∈ activePositions positions,
      weight = ⟨entry.1, entry.2 * (price entry.1).getD 0, entry.2 * (price entry.1).getD 0 / totalValue⟩ := by
  rw [(weightsOf_perm price positions totalValue).mem_iff, List.mem_map]
  simp only [eq_comm]

theorem weightsOf_symbols : ((weightsOf price positions totalValue).map AssetWeight.symbol).Perm
    ((activePositions positions).map Prod.fst) := by
  refine ((weightsOf_perm price positions totalValue).map _).trans ?_
  rw [List.map_map]
  exact .refl _

theorem weightsOf_values : ((weightsOf price positions totalValue).map AssetWeight.marketValue).sum =
    marketValue price positions := by
  rw [((weightsOf_perm price positions totalValue).map _).sum_eq, List.map_map]
  rfl

theorem weightsOf_sum : ((weightsOf price positions totalValue).map AssetWeight.weight).sum =
    marketValue price positions / totalValue := by
  rw [((weightsOf_perm price positions totalValue).map _).sum_eq, List.map_map, marketValue, div_eq_mul_inv,
    ← List.sum_map_mul_right]
  rfl

variable {price positions}

theorem weightsOf_congr {price' : String → Option ℚ}
    (same : ∀ entry ∈ activePositions positions, price entry.1 = price' entry.1) :
    weightsOf price positions totalValue = weightsOf price' positions totalValue := by
  have values : ((activePositions positions).map fun entry => (entry.1, entry.2 * (price entry.1).getD 0)) =
      (activePositions positions).map fun entry => (entry.1, entry.2 * (price' entry.1).getD 0) :=
    List.map_congr_left fun entry active => by rw [same entry active]
  rw [weightsOf, values, weightsOf]

end Weights

theorem activePositions_nodup (positions : Dict String ℚ) : ((activePositions positions).map Prod.fst).Nodup :=
  positions.nodup.sublist (List.filter_sublist.map _)

section Snapshots
variable [UnicodeDatabase] {F : Type}

/-- The value, the cash and the weights of a valuation all describe one account, on the day of the last point. -/
structure Coherent (transactions : List Transaction) (priceBarsBySymbol : Dict String (List PriceBar))
    (startDate : Date) (valuation : PortfolioValuation F) (latest : PortfolioValuePoint) (account : Account) :
    Prop where
  latest_eq : valuation.points.getLast? = some latest
  account_eq : ∃ flow, accountOn transactions latest.date = .ok (account, flow)
  portfolioValue : valuation.portfolioValue = latest.totalValue
  cashBalance : valuation.cashBalance = account.cashBalance
  symbols : ∀ symbol, symbol ∈ valuation.assetWeights.map AssetWeight.symbol ↔ account.positions.getD symbol 0 ≠ 0
  distinct : (valuation.assetWeights.map AssetWeight.symbol).Nodup
  marketValues : ∀ weight ∈ valuation.assetWeights, weight.marketValue =
    account.positions.getD weight.symbol 0 * (lastPrice priceBarsBySymbol startDate latest.date weight.symbol).getD 0
  value : valuation.portfolioValue =
    valuation.cashBalance + (valuation.assetWeights.map AssetWeight.marketValue).sum
  weights : ∀ weight ∈ valuation.assetWeights, 0 < weight.weight ∧ weight.weight ≤ 1
  total : (valuation.assetWeights.map AssetWeight.weight).sum + valuation.cashBalance / valuation.portfolioValue = 1

/-- A valuation whose weights are those of the account behind its last point is coherent. -/
theorem Coherent.of_weights {transactions : List Transaction} {priceBarsBySymbol : Dict String (List PriceBar)}
    {startDate : Date} {valuation : PortfolioValuation F} {latest : PortfolioValuePoint} {account : Account} {flow : ℚ}
    (latest_eq : valuation.points.getLast? = some latest)
    (replayed : accountOn transactions latest.date = .ok (account, flow))
    (portfolioValue : valuation.portfolioValue = latest.totalValue)
    (cashBalance : valuation.cashBalance = account.cashBalance)
    (worth : latest.totalValue = account.cashBalance +
      marketValue (lastPrice priceBarsBySymbol startDate latest.date) account.positions)
    (positive : 0 < latest.totalValue)
    (priced : PricedPositions (lastPrice priceBarsBySymbol startDate latest.date) account.positions)
    (weights : valuation.assetWeights =
      weightsOf (lastPrice priceBarsBySymbol startDate latest.date) account.positions latest.totalValue) :
    Coherent transactions priceBarsBySymbol startDate valuation latest account := by
  have solvent := (replay_replayed replayed).cash_nonneg
  refine ⟨latest_eq, ⟨flow, replayed⟩, portfolioValue, cashBalance, fun symbol => ?_, ?_, fun weight listed => ?_, ?_,
    fun weight listed => ?_, ?_⟩
  · rw [weights, (weightsOf_symbols ..).mem_iff, active_iff]
  · rw [weights, (weightsOf_symbols ..).nodup_iff]
    exact activePositions_nodup _
  · rw [weights] at listed
    obtain ⟨entry, member, rfl⟩ := (mem_weightsOf ..).mp listed
    simp only [Dict.getD, (mem_activePositions.mp member).1, Option.getD_some]
  · rw [weights, weightsOf_values, portfolioValue, cashBalance, worth]
  · rw [weights] at listed
    obtain ⟨entry, member, rfl⟩ := (mem_weightsOf ..).mp listed
    refine ⟨div_pos (priced entry member) positive, (div_le_one positive).mpr ?_⟩
    rw [worth]
    linarith [priced.le_marketValue member]
  · rw [weights, weightsOf_sum, portfolioValue, cashBalance, ← add_div, add_comm, ← worth, div_self positive.ne']

/-- On the last day that could be valued a security was held, and the ledger has left nothing at all
by the last day of the calendar. -/
structure SoldOut (transactions : List Transaction) (priceBarsBySymbol : Dict String (List PriceBar))
    (startDate : Date) (calendar : List Date) (day : Date) : Prop where
  listed : day ∈ calendar
  held : ∃ account flow, accountOn transactions day = .ok (account, flow) ∧
    Valuable (lastPrice priceBarsBySymbol startDate day) account ∧ activePositions account.positions ≠ []
  afterwards : ∀ later ∈ calendar, day < later → ∀ account flow, accountOn transactions later = .ok (account, flow) →
    ¬ Valuable (lastPrice priceBarsBySymbol startDate later) account
  emptied : ∃ last account flow, calendar.getLast? = some last ∧ accountOn transactions last = .ok (account, flow) ∧
    account.cashBalance = 0 ∧ activePositions account.positions = []

/-- A day has a point when its account can be valued. -/
theorem pointOn_eq_some {transactions : List Transaction} {priceBarsBySymbol : Dict String (List PriceBar)}
    {startDate day : Date} {summary : Date × ℚ × ℚ} :
    pointOn transactions priceBarsBySymbol startDate day = some summary ↔ ∃ account flow,
      accountOn transactions day = .ok (account, flow) ∧ Valuable (lastPrice priceBarsBySymbol startDate day) account ∧
      summary = (day, account.cashBalance + marketValue (lastPrice priceBarsBySymbol startDate day) account.positions,
        account.cashBalance) := by
  cases replayed : accountOn transactions day with
  | error raised => simp [pointOn, replayed]
  | ok result =>
    obtain ⟨account, flow⟩ := result
    rw [pointOn_of_account replayed]
    by_cases valuable : Valuable (lastPrice priceBarsBySymbol startDate day) account
    · simp [valueOn, valuable, eq_comm]
    · simp [valueOn, valuable]

section Prices
variable {transactions : List Transaction} {priceBarsBySymbol : Dict String (List PriceBar)} {startDate endDate : Date}
  {symbols : List String}

/-- The bars are checked to have positive prices, so what is held and has a price is worth something. -/
theorem pricedPositions_of_tables (requires : Requires transactions startDate endDate symbols)
    (tables : ∀ symbol ∈ symbols, ∃ table, TableOf (rangeBars priceBarsBySymbol startDate endDate symbol) table)
    {day : Date} (visited : day ∈ marketCalendar priceBarsBySymbol startDate endDate symbols) {account : Account}
    {flow : ℚ} (replayed : accountOn transactions day = .ok (account, flow))
    (priced : ∀ entry ∈ activePositions account.positions,
      (lastPrice priceBarsBySymbol startDate day entry.1).isSome) :
    PricedPositions (lastPrice priceBarsBySymbol startDate day) account.positions := by
  intro entry listed
  obtain ⟨after, before⟩ := marketCalendar_within visited
  obtain ⟨found, nonzero⟩ := mem_activePositions.mp listed
  have held : account.positions.getD entry.1 0 = entry.2 := by rw [Dict.getD, found, Option.getD_some]
  have quantity : 0 < entry.2 := by
    refine lt_of_le_of_ne ?_ nonzero.symm
    rw [← held]
    exact (replay_replayed replayed).nonneg entry.1
  have required : entry.1 ∈ symbols := requires.active after before replayed (held ▸ nonzero)
  obtain ⟨table, sound⟩ := tables entry.1 required
  obtain ⟨price, known⟩ := Option.isSome_iff_exists.mp (priced entry listed)
  have positive : 0 < price := by
    rw [lastPrice_eq_rangeBars before] at known
    obtain ⟨bar, latest, rfl⟩ := Option.map_eq_some_iff.mp known
    exact sound.positive bar (AsOf.latest_mem latest).1
  rw [known, Option.getD_some]
  exact mul_pos quantity positive

/-- The loop ends with the account and the prices of the last day of the calendar. -/
theorem ValuedThrough.ends {final : ReplayState} (requires : Requires transactions startDate endDate symbols)
    (valued : ValuedThrough transactions priceBarsBySymbol startDate endDate symbols
      (marketCalendar priceBarsBySymbol startDate endDate symbols) final) {last : Date}
    (ends : (marketCalendar priceBarsBySymbol startDate endDate symbols).getLast? = some last) :
    accountOn transactions last =
        .ok (final.account, total PortfolioValuePoint.netExternalFlow final.points + final.pendingExternalFlow) ∧
      ∀ entry ∈ activePositions final.account.positions,
        final.latestPrices.get? entry.1 = lastPrice priceBarsBySymbol startDate last entry.1 := by
  obtain ⟨after, before⟩ := marketCalendar_within (List.mem_of_getLast? ends)
  have account := valued.accountOn_last (fun day listed => (marketCalendar_within listed).2) ends
  refine ⟨account, fun entry active => ?_⟩
  have held := active_iff.mp (List.mem_map_of_mem active)
  rw [valued.prices entry.1 (requires.active after before account held), ends, Option.bind_some]

end Prices

/-- Where the parts of a valuation come from: value and cash from the last day that has a point, the
weights from the last day of the calendar. -/
structure Snapshot (transactions : List Transaction) (priceBarsBySymbol : Dict String (List PriceBar))
    (startDate : Date) (calendar : List Date) (valuation : PortfolioValuation F) (latest : PortfolioValuePoint)
    (account : Account) : Prop where
  latest_eq : valuation.points.getLast? = some latest
  listed : latest.date ∈ calendar
  replayed : ∃ flow, accountOn transactions latest.date = .ok (account, flow)
  valuable : Valuable (lastPrice priceBarsBySymbol startDate latest.date) account
  priced : PricedPositions (lastPrice priceBarsBySymbol startDate latest.date) account.positions
  totalValue : latest.totalValue = account.cashBalance +
    marketValue (lastPrice priceBarsBySymbol startDate latest.date) account.positions
  portfolioValue : valuation.portfolioValue = latest.totalValue
  cashBalance : valuation.cashBalance = account.cashBalance
  afterwards : ∀ later ∈ calendar, latest.date < later → pointOn transactions priceBarsBySymbol startDate later = none
  weights : (calendar.getLast? = some latest.date ∧ valuation.assetWeights =
      weightsOf (lastPrice priceBarsBySymbol startDate latest.date) account.positions latest.totalValue) ∨
    ((∃ last final flow, calendar.getLast? = some last ∧ accountOn transactions last = .ok (final, flow) ∧
      final.cashBalance = 0 ∧ activePositions final.positions = []) ∧ valuation.assetWeights = [])

theorem buildPortfolioValuation_snapshot [FloatArithmetic F] {transactions : List Transaction}
    {priceBarsBySymbol : Dict String (List PriceBar)} {startDate endDate : Date} {valuation : PortfolioValuation F}
    (built : buildPortfolioValuation .exact transactions priceBarsBySymbol startDate endDate = .ok valuation) :
    ∃ symbols latest account, requiredPriceSymbols .exact transactions startDate endDate = .ok symbols ∧
      Snapshot transactions priceBarsBySymbol startDate (marketCalendar priceBarsBySymbol startDate endDate symbols)
        valuation latest account := by
  obtain ⟨symbols, final, required, requires, tables, valued, summarized⟩ := buildPortfolioValuation_eq_ok built
  obtain ⟨latest, summarizes⟩ := summarize_eq_ok summarized
  have ascending := marketCalendar_ascending priceBarsBySymbol startDate endDate symbols
  have lastPoint : ((marketCalendar priceBarsBySymbol startDate endDate symbols).filterMap
      (pointOn transactions priceBarsBySymbol startDate)).getLast? = some latest.summary := by
    rw [← valued.points, List.getLast?_map, summarizes.latest_eq, Option.map_some]
  obtain ⟨front, day, back, calendar, point, afterwards⟩ := Timeline.filterMap_getLast?_eq_some lastPoint
  have date : latest.date = day := pointOn_date point
  subst date
  obtain ⟨account, flow, replayed, valuable, values⟩ := pointOn_eq_some.mp point
  have totalValue : latest.totalValue = account.cashBalance +
      marketValue (lastPrice priceBarsBySymbol startDate latest.date) account.positions := congrArg (·.2.1) values
  have cashBalance : latest.cashBalance = account.cashBalance := congrArg (·.2.2) values
  have listed : latest.date ∈ marketCalendar priceBarsBySymbol startDate endDate symbols := by
    rw [calendar]
    exact List.mem_append_right front List.mem_cons_self
  refine ⟨symbols, latest, account, required, summarizes.points ▸ summarizes.latest_eq, listed, ⟨flow, replayed⟩,
    valuable, pricedPositions_of_tables requires tables listed replayed valuable.1, totalValue,
    summarizes.portfolioValue, summarizes.cashBalance.trans cashBalance, fun later member order => ?_, ?_⟩
  · rw [calendar] at member ascending
    rcases List.mem_append.mp member with earlier | rest
    · have before := (List.pairwise_append.mp ascending).2.2 later earlier latest.date List.mem_cons_self
      exact absurd order before.asymm
    · rcases List.mem_cons.mp rest with same | behind
      · exact absurd same.symm order.ne
      · exact afterwards later behind
  · obtain ⟨last, ends⟩ : ∃ last, (marketCalendar priceBarsBySymbol startDate endDate symbols).getLast? = some last :=
      ⟨_, List.getLast?_eq_some_getLast (List.ne_nil_of_mem listed)⟩
    have member : last ∈ marketCalendar priceBarsBySymbol startDate endDate symbols := List.mem_of_getLast? ends
    obtain ⟨final_eq, samePrices⟩ := valued.ends requires ends
    have weights : valuation.assetWeights =
        weightsOf (lastPrice priceBarsBySymbol startDate last) final.account.positions latest.totalValue := by
      rw [summarizes.weights, weightsOf_congr latest.totalValue samePrices]
    rcases eq_or_ne last latest.date with rfl | later
    · cases Except.ok.inj (replayed.symm.trans final_eq)
      exact .inl ⟨ends, weights⟩
    · have behind : last ∈ back := by
        rw [calendar, List.getLast?_append_of_ne_nil _ (by simp)] at ends
        exact (List.mem_cons.mp (List.mem_of_getLast? ends)).resolve_left later
      have skipped := afterwards last behind
      have known : ∀ entry ∈ activePositions final.account.positions,
          (lastPrice priceBarsBySymbol startDate last entry.1).isSome :=
        fun entry active => samePrices entry active ▸ summarizes.priced entry active
      have priced := pricedPositions_of_tables requires tables member final_eq known
      obtain ⟨noCash, nothing⟩ := priced.emptied (replay_replayed final_eq).cash_nonneg <| by
        by_contra positive
        rw [pointOn_eq_some.mpr ⟨_, _, final_eq, ⟨known, not_le.mp positive⟩, rfl⟩] at skipped
        cases skipped
      refine .inr ⟨⟨last, final.account, _, ends, final_eq, noCash, nothing⟩, ?_⟩
      rw [weights, weightsOf, nothing]
      rfl

section Snapshot
variable {transactions : List Transaction} {priceBarsBySymbol : Dict String (List PriceBar)} {startDate : Date}
  {calendar : List Date} {valuation : PortfolioValuation F} {latest : PortfolioValuePoint} {account : Account}

theorem Snapshot.coherent
    (snapshot : Snapshot transactions priceBarsBySymbol startDate calendar valuation latest account)
    (weights : valuation.assetWeights =
      weightsOf (lastPrice priceBarsBySymbol startDate latest.date) account.positions latest.totalValue) :
    Coherent transactions priceBarsBySymbol startDate valuation latest account := by
  obtain ⟨flow, replayed⟩ := snapshot.replayed
  refine .of_weights snapshot.latest_eq replayed snapshot.portfolioValue snapshot.cashBalance snapshot.totalValue ?_
    snapshot.priced weights
  rw [snapshot.totalValue]
  exact snapshot.valuable.2

/-- Only the day of the last point can be one after which all was sold. -/
theorem Snapshot.soldOut_day
    (snapshot : Snapshot transactions priceBarsBySymbol startDate calendar valuation latest account) {day : Date}
    (soldOut : SoldOut transactions priceBarsBySymbol startDate calendar day) : day = latest.date := by
  obtain ⟨held, flow, replayed, valuable, _⟩ := soldOut.held
  obtain ⟨flow', replayed'⟩ := snapshot.replayed
  rcases lt_trichotomy day latest.date with before | same | after
  · exact absurd snapshot.valuable (soldOut.afterwards _ snapshot.listed before account flow' replayed')
  · exact same
  · have pointless := snapshot.afterwards day soldOut.listed after
    rw [pointOn_eq_some.mpr ⟨held, flow, replayed, valuable, rfl⟩] at pointless
    cases pointless

/-- The latest snapshot is coherent unless everything has been sold and paid out since. -/
theorem Snapshot.coherent_iff
    (snapshot : Snapshot transactions priceBarsBySymbol startDate calendar valuation latest account) :
    (∃ latest account, Coherent transactions priceBarsBySymbol startDate valuation latest account) ↔
      ¬ ∃ day, SoldOut transactions priceBarsBySymbol startDate calendar day := by
  obtain ⟨flow, replayed⟩ := snapshot.replayed
  constructor
  · rintro ⟨latest', account', coherent⟩ ⟨day, soldOut⟩
    cases snapshot.soldOut_day soldOut
    cases Option.some.inj (snapshot.latest_eq.symm.trans coherent.latest_eq)
    obtain ⟨flow', replayed'⟩ := coherent.account_eq
    cases Except.ok.inj (replayed.symm.trans replayed')
    obtain ⟨held, flow'', replayed'', _, holding⟩ := soldOut.held
    cases Except.ok.inj (replayed.symm.trans replayed'')
    obtain ⟨entry, active⟩ := List.exists_mem_of_ne_nil _ holding
    have weighed := (coherent.symbols entry.1).mpr (active_iff.mp (List.mem_map_of_mem active))
    rcases snapshot.weights with ⟨ends, _⟩ | ⟨_, nothingWeighed⟩
    · obtain ⟨last, final, _, ends', final_eq, _, nothing⟩ := soldOut.emptied
      cases Option.some.inj (ends.symm.trans ends')
      cases Except.ok.inj (replayed.symm.trans final_eq)
      exact holding nothing
    · rw [nothingWeighed] at weighed
      cases weighed
  · intro never
    rcases snapshot.weights with ⟨_, weights⟩ | ⟨emptied, nothingWeighed⟩
    · exact ⟨latest, account, snapshot.coherent weights⟩
    · have nothing : activePositions account.positions = [] := by
        by_contra holding
        refine never ⟨latest.date, snapshot.listed, ⟨account, flow, replayed, snapshot.valuable, holding⟩, ?_, emptied⟩
        intro later member order other flow' run valuable
        have skipped := snapshot.afterwards later member order
        rw [pointOn_eq_some.mpr ⟨other, flow', run, valuable, rfl⟩] at skipped
        cases skipped
      refine ⟨latest, account, snapshot.coherent ?_⟩
      rw [nothingWeighed, weightsOf, nothing]
      rfl

end Snapshot

/-- Value, cash and weights all describe the day of the last point, except when a security was held on
that day and the ledger has left neither cash nor positions by the end of the calendar. -/
theorem snapshot_coherent [FloatArithmetic F] {transactions : List Transaction}
    {priceBarsBySymbol : Dict String (List PriceBar)} {startDate endDate : Date} {valuation : PortfolioValuation F}
    (built : buildPortfolioValuation .exact transactions priceBarsBySymbol startDate endDate = .ok valuation) :
    ∃ symbols, requiredPriceSymbols .exact transactions startDate endDate = .ok symbols ∧
      ((∃ latest account, Coherent transactions priceBarsBySymbol startDate valuation latest account) ↔
        ¬ ∃ day, SoldOut transactions priceBarsBySymbol startDate
          (marketCalendar priceBarsBySymbol startDate endDate symbols) day) := by
  obtain ⟨symbols, latest, account, required, snapshot⟩ := buildPortfolioValuation_snapshot built
  exact ⟨symbols, required, snapshot.coherent_iff⟩

end Snapshots

section Samples

attribute [local instance] Text.asciiDatabase FloatArithmetic.rational

theorem sample_snapshot : ∃ (symbols : List String) (valuation : PortfolioValuation ℚ),
    requiredPriceSymbols .exact sampleLedger (sampleDay 0) (sampleDay 7) = .ok symbols ∧
    buildPortfolioValuation .exact sampleLedger sampleBars (sampleDay 0) (sampleDay 7) = .ok valuation ∧
    ((∃ latest account, Coherent sampleLedger sampleBars (sampleDay 0) valuation latest account) ↔
      ¬ ∃ day, SoldOut sampleLedger sampleBars (sampleDay 0)
        (marketCalendar sampleBars (sampleDay 0) (sampleDay 7) symbols) day) := by
  obtain ⟨valuation, built⟩ := sample_built
  obtain ⟨symbols, required, coherent⟩ := snapshot_coherent built
  exact ⟨symbols, valuation, required, built, coherent⟩

/-- Two shares bought on the first day; on the second both are sold and the proceeds withdrawn. -/
def soldLedger : List Transaction :=
  [sampleTrade .buy "A" 0 2 10, sampleTrade .sell "A" 1 2 12,
    { sampleTrade .withdrawal "A" 1 0 0 with
      id := ⟨3⟩, symbol := none, quantity := none, unitPrice := none, cashAmount := some (.finite false 24 0) }]

def soldBars : Dict String (List PriceBar) := Dict.empty.set "A" [sampleBar "A" 0 10, sampleBar "A" 1 12]

/-- After a sale and a withdrawal of everything, value and cash are those of the day before, but the
position held then is missing from the weights. -/
theorem sold_out_incoherent : ∃ valuation : PortfolioValuation ℚ,
    buildPortfolioValuation .exact soldLedger soldBars (sampleDay 0) (sampleDay 7) = .ok valuation ∧
    valuation.portfolioValue = 20 ∧ valuation.cashBalance = 0 ∧ valuation.assetWeights = [] ∧
    ¬ ∃ latest account, Coherent soldLedger soldBars (sampleDay 0) valuation latest account := by
  have returns : ((buildPortfolioValuation (F := ℚ) .exact soldLedger soldBars (sampleDay 0) (sampleDay 7)).map
      fun valuation => decide (valuation.portfolioValue = 20 ∧ valuation.cashBalance = 0 ∧
        valuation.assetWeights = [])) = .ok true := by
    decide +kernel
  obtain ⟨valuation, built, decided⟩ := Checked.map_eq_ok.mp returns
  obtain ⟨value, cash, weightless⟩ := of_decide_eq_true decided
  refine ⟨valuation, built, value, cash, weightless, ?_⟩
  rintro ⟨latest, account, coherent⟩
  have summed := coherent.value
  rw [value, cash, weightless] at summed
  norm_num at summed

end Samples
end LedgerLens

import LedgerLens.ValuationReplay

namespace LedgerLens
open Decimal (Context)
open RunningSum (total)

section Summaries
variable {F : Type} [FloatArithmetic F]

theorem divide_eq_ok {x y z : ℚ} : divide .exact x y = .ok z ↔ y ≠ 0 ∧ z = x / y := by
  rw [divide, Checked.guard_eq_ok, Context.exact_div, Except.ok.injEq, eq_comm (a := z)]

/-- The market value of each position that is not zero, in symbol order, over the value of the whole. -/
def weightsOf (price : String → Option ℚ) (positions : Dict String ℚ) (totalValue : ℚ) : List AssetWeight :=
  (StableSort.sortOn Prod.fst ((activePositions positions).map fun entry =>
    (entry.1, entry.2 * (price entry.1).getD 0))).map fun entry => ⟨entry.1, entry.2, entry.2 / totalValue⟩

/-- What `build_portfolio_valuation` makes of the final state of its loop. -/
structure Summarizes (final : ReplayState) (latest : PortfolioValuePoint)
    (valuation : PortfolioValuation F) : Prop where
  latest_eq : final.points.getLast? = some latest
  points : valuation.points = final.points
  returns : cashFlowAdjustedReturns .exact final.points = .ok valuation.periodReturns
  portfolioValue : valuation.portfolioValue = latest.totalValue
  cashBalance : valuation.cashBalance = latest.cashBalance
  priced : ∀ entry ∈ activePositions final.account.positions, (final.latestPrices.get? entry.1).isSome
  weights : valuation.assetWeights =
    weightsOf final.latestPrices.get? final.account.positions latest.totalValue

theorem summarize_eq_ok {final : ReplayState} {valuation : PortfolioValuation F}
    (run : summarize .exact final = .ok valuation) : ∃ latest, Summarizes final latest valuation := by
  unfold summarize at run
  cases last : final.points.getLast? with
  | none =>
    rw [last] at run
    cases run
  | some latest =>
    rw [last] at run
    simp only at run
    split at run
    · cases run
    · next noneMissing =>
      have priced : ∀ entry ∈ activePositions final.account.positions, (final.latestPrices.get? entry.1).isSome := by
        intro entry listed
        by_contra unpriced
        have missing : entry.1 ∈ sortedSet (((activePositions final.account.positions).map Prod.fst).filter
            fun symbol => (final.latestPrices.get? symbol).isNone) := by
          rw [mem_sortedSet, List.mem_filter]
          exact ⟨List.mem_map_of_mem listed, by simpa using unpriced⟩
        rw [noneMissing] at missing
        cases missing
      obtain ⟨values, assets, run⟩ := Checked.bind_eq_ok.mp run
      cases Except.ok.inj (assets.symm.trans (assetValues_eq_ok priced))
      obtain ⟨weights, weighed, run⟩ := Checked.bind_eq_ok.mp run
      obtain ⟨returns, computed, run⟩ := Checked.bind_eq_ok.mp run
      cases Checked.pure_eq_ok.mp run
      refine ⟨latest, last, rfl, computed, rfl, rfl, priced, ?_⟩
      refine Except.ok.inj (weighed.symm.trans (Checked.mapM_eq_ok fun entry listed => ?_))
      obtain ⟨_, weight⟩ := Checked.exists_of_mapM_eq_ok weighed entry listed
      obtain ⟨_, divided, _⟩ := Checked.bind_eq_ok.mp weight
      have nonzero := (divide_eq_ok.mp divided).1
      exact Checked.bind_eq_ok.mpr ⟨_, divide_eq_ok.mpr ⟨nonzero, rfl⟩, rfl⟩

end Summaries

section FromScratch
variable [UnicodeDatabase]

theorem pointOn_date {transactions : List Transaction} {priceBarsBySymbol : Dict String (List PriceBar)}
    {startDate day : Date} {summary : Date × ℚ × ℚ}
    (valued : pointOn transactions priceBarsBySymbol startDate day = some summary) : summary.1 = day := by
  unfold pointOn at valued
  split at valued
  · obtain ⟨_, _, rfl⟩ := Option.map_eq_some_iff.mp valued
    rfl
  · cases valued

/-- If the ledger can be replayed to some day, it can be replayed to any day before. -/
theorem accountOn_earlier {transactions : List Transaction} {earlier day : Date} (order : earlier ≤ day)
    {account : Account} {flow : ℚ} (run : accountOn transactions day = .ok (account, flow)) :
    ∃ account flow, accountOn transactions earlier = .ok (account, flow) := by
  rw [← replay_reachedBy le_rfl] at run
  have weaker : ∀ t : Transaction, t.reachedBy (some earlier) → t.reachedBy (some day) := fun t reached =>
    decide_eq_true ((of_decide_eq_true reached).trans order)
  rw [(Timeline.takeWhile_append_dropWhile weaker _).1] at run
  obtain ⟨⟨account, flow⟩, first, _⟩ := Checked.foldlM_append_eq_ok.mp run
  exact ⟨account, flow, (replay_reachedBy order).symm.trans first⟩

variable {F : Type} [FloatArithmetic F]

/-- The points of a valuation are those worked out from scratch for each day of the calendar: each
from the ledger and the bars up to that day alone, on ascending days. -/
theorem valuation_from_scratch {transactions : List Transaction} {priceBarsBySymbol : Dict String (List PriceBar)}
    {startDate endDate : Date} {valuation : PortfolioValuation F}
    (built : buildPortfolioValuation .exact transactions priceBarsBySymbol startDate endDate = .ok valuation) :
    ∃ symbols, requiredPriceSymbols .exact transactions startDate endDate = .ok symbols ∧
      (∀ day ∈ marketCalendar priceBarsBySymbol startDate endDate symbols,
        ∃ account flow, accountOn transactions day = .ok (account, flow)) ∧
      valuation.points.map PortfolioValuePoint.summary =
        (marketCalendar priceBarsBySymbol startDate endDate symbols).filterMap
          (pointOn transactions priceBarsBySymbol startDate) ∧
      (valuation.points.map PortfolioValuePoint.date).Pairwise (· < ·) ∧
      ∀ (day : Date) (transactions' : List Transaction) (priceBarsBySymbol' : Dict String (List PriceBar)),
        ((transactions'.filter fun t => t.utcDate ≤ day) = transactions.filter fun t => t.utcDate ≤ day) →
        (∀ symbol, ((barsOf priceBarsBySymbol' symbol).filter fun bar => bar.date ≤ day) =
          (barsOf priceBarsBySymbol symbol).filter fun bar => bar.date ≤ day) →
        pointOn transactions' priceBarsBySymbol' startDate day =
          pointOn transactions priceBarsBySymbol startDate day := by
  obtain ⟨symbols, final, required, requires, _, valued, summarized⟩ := buildPortfolioValuation_eq_ok built
  obtain ⟨latest, summarizes⟩ := summarize_eq_ok summarized
  have ascending := marketCalendar_ascending priceBarsBySymbol startDate endDate symbols
  refine ⟨symbols, required, fun day listed => ?_, ?_, ?_, ?_⟩
  · have nonempty := List.ne_nil_of_mem listed
    have last := valued.accountOn_last (fun day listed => (marketCalendar_within listed).2)
      (List.getLast?_eq_some_getLast nonempty)
    exact accountOn_earlier ((ascending.imp le_of_lt).rel_getLast listed) last
  · rw [summarizes.points]
    exact valued.points
  · have dates : valuation.points.map PortfolioValuePoint.date =
        (valuation.points.map PortfolioValuePoint.summary).map Prod.fst := by
      rw [List.map_map]
      rfl
    rw [dates, summarizes.points, valued.points]
    exact ascending.sublist (Timeline.map_filterMap_sublist (fun _ _ => pointOn_date) _)
  · exact fun day transactions' bars' sameLedger sameBars => pointOn_congr startDate sameLedger sameBars

end FromScratch

section Samples

attribute [local instance] Text.asciiDatabase FloatArithmetic.rational

-- The numerals for the days of the samples rest on this.
instance sampleDays : NeZero 8 := ⟨by decide⟩

theorem sampleTime_below (day : Fin 8) : (738886 + day) * 86400000000 < DateTime.ceiling := by
  unfold DateTime.ceiling DateTime.microsPerDay
  omega

/-- Midnight some days after 2024-01-02. -/
def sampleTime (day : Fin 8) : DateTime := .ofInstant ((738886 + day) * 86400000000) (sampleTime_below day)

def sampleDay (day : Fin 8) : Date := ⟨738887 + day⟩

def sampleTrade (transactionType : TransactionType) (symbol : String) (day : Fin 8) (quantity unitPrice : Nat) :
    Transaction where
  id := ⟨day⟩
  portfolioId := ⟨2⟩
  externalId := "trade"
  transactionType := transactionType
  occurredAt := sampleTime day
  createdAt := some (sampleTime day)
  symbol := some symbol
  quantity := some (.finite false quantity 0)
  unitPrice := some (.finite false unitPrice 0)
  cashAmount := none
  fees := .finite false 0 0

def sampleBar (symbol : String) (day : Fin 8) (price : Nat) : PriceBar where
  symbol := symbol
  date := sampleDay day
  adjustedClose := .finite false price 0

/-- Two shares bought on the first day and one sold on the third, with bars on the first, second and fourth. -/
def sampleLedger : List Transaction := [sampleTrade .buy "A" 0 2 10, sampleTrade .sell "A" 2 1 12]

def sampleBars : Dict String (List PriceBar) :=
  Dict.empty.set "A" [sampleBar "A" 0 10, sampleBar "A" 1 11, sampleBar "A" 3 13]

theorem sample_built : ∃ valuation : PortfolioValuation ℚ,
    buildPortfolioValuation .exact sampleLedger sampleBars (sampleDay 0) (sampleDay 7) = .ok valuation :=
  Checked.exists_of_isOk (by decide +kernel)

theorem sample_from_scratch : ∃ (symbols : List String) (valuation : PortfolioValuation ℚ),
    requiredPriceSymbols .exact sampleLedger (sampleDay 0) (sampleDay 7) = .ok symbols ∧
    buildPortfolioValuation .exact sampleLedger sampleBars (sampleDay 0) (sampleDay 7) = .ok valuation ∧
    valuation.points.map PortfolioValuePoint.summary =
      (marketCalendar sampleBars (sampleDay 0) (sampleDay 7) symbols).filterMap
        (pointOn sampleLedger sampleBars (sampleDay 0)) := by
  obtain ⟨valuation, built⟩ := sample_built
  obtain ⟨symbols, required, _, points, _⟩ := valuation_from_scratch built
  exact ⟨symbols, valuation, required, built, points⟩

end Samples

end LedgerLens

import LedgerLens.ValuationFromScratch

namespace LedgerLens
open Decimal (Context)
open RunningSum (total)

section Conservation
variable [UnicodeDatabase]

/-- The market value of the positions on a day. -/
def marketValueOn (transactions : List Transaction) (priceBarsBySymbol : Dict String (List PriceBar))
    (startDate day : Date) : ℚ :=
  match accountOn transactions day with
  | .ok (account, _) => marketValue (lastPrice priceBarsBySymbol startDate day) account.positions
  | .error _ => 0

/-- What a portfolio gains from one day to another: the change in the market value of its positions,
less what was bought, with what was sold, after the fees. -/
def gainBetween (transactions : List Transaction) (priceBarsBySymbol : Dict String (List PriceBar))
    (startDate earlier later : Date) : ℚ :=
  let between := transactions.filter fun t => earlier < t.utcDate ∧ t.utcDate ≤ later
  marketValueOn transactions priceBarsBySymbol startDate later -
      marketValueOn transactions priceBarsBySymbol startDate earlier -
    total Transaction.buyCost between + total Transaction.sellProceeds between - total Transaction.feesPaid between

theorem accountOn_cash {transactions : List Transaction} {day : Date} {account : Account} {flow : ℚ}
    (run : accountOn transactions day = .ok (account, flow)) :
    account.cashBalance = flow -
      total Transaction.feesPaid (transactions.filter fun t => t.utcDate ≤ day) -
      total Transaction.buyCost (transactions.filter fun t => t.utcDate ≤ day) +
      total Transaction.sellProceeds (transactions.filter fun t => t.utcDate ≤ day) := by
  have unsorted : ∀ amount : Transaction → ℚ,
      total amount (ledgerSorted (transactions.filter fun t => t.utcDate ≤ day)) =
        total amount (transactions.filter fun t => t.utcDate ≤ day) :=
    fun amount => RunningSum.total_perm amount (StableSort.sortOn_perm _ _)
  rw [(replay_replayed run).cash, unsorted, unsorted, unsorted]

omit [UnicodeDatabase] in
/-- The transactions up to a later day are those up to an earlier one and those in between. -/
theorem total_between (amount : Transaction → ℚ) (transactions : List Transaction) {earlier later : Date}
    (order : earlier ≤ later) :
    total amount (transactions.filter fun t => t.utcDate ≤ later) =
      total amount (transactions.filter fun t => t.utcDate ≤ earlier) +
        total amount (transactions.filter fun t => earlier < t.utcDate ∧ t.utcDate ≤ later) := by
  rw [← RunningSum.total_filter_add amount (fun t : Transaction => decide (t.utcDate ≤ earlier)),
    Timeline.filter_filter_of_imp fun t _ early => early.trans order, List.filter_filter]
  congr 2
  refine List.filter_congr fun t _ => ?_
  rw [← decide_not, ← Bool.decide_and]
  exact decide_eq_decide.mpr (and_congr_left' not_le)

variable {F : Type} [FloatArithmetic F]

/-- What a valuation says of each of its points. -/
theorem points_explained {transactions : List Transaction} {priceBarsBySymbol : Dict String (List PriceBar)}
    {startDate endDate : Date} {valuation : PortfolioValuation F}
    (built : buildPortfolioValuation .exact transactions priceBarsBySymbol startDate endDate = .ok valuation)
    (k : Nat) (bound : k < valuation.points.length) :
    ∃ account, accountOn transactions valuation.points[k].date =
        .ok (account, total PortfolioValuePoint.netExternalFlow (valuation.points.take (k + 1))) ∧
      valuation.points[k].cashBalance = account.cashBalance ∧
      valuation.points[k].totalValue = valuation.points[k].cashBalance +
        marketValueOn transactions priceBarsBySymbol startDate valuation.points[k].date ∧
      0 < valuation.points[k].totalValue := by
  obtain ⟨symbols, final, _, _, _, valued, summarized⟩ := buildPortfolioValuation_eq_ok built
  obtain ⟨latest, summarizes⟩ := summarize_eq_ok summarized
  have points := summarizes.points
  simp only [points] at bound ⊢
  obtain ⟨account, replayed, value, cash⟩ := valued.flows k bound
  refine ⟨account, replayed, cash, ?_⟩
  unfold valueOn at value
  simp only at value
  split at value
  · next valuable =>
    have worth := Option.some.inj value
    rw [marketValueOn, replayed, cash]
    exact ⟨worth.symm, worth ▸ valuable.2⟩
  · cases value

theorem points_dates {transactions : List Transaction} {priceBarsBySymbol : Dict String (List PriceBar)}
    {startDate endDate : Date} {valuation : PortfolioValuation F}
    (built : buildPortfolioValuation .exact transactions priceBarsBySymbol startDate endDate = .ok valuation)
    {j k : Nat} (order : j < k) (bound : k < valuation.points.length) :
    valuation.points[j].date < valuation.points[k].date := by
  obtain ⟨_, _, _, _, ascending, _⟩ := valuation_from_scratch built
  have dated := List.pairwise_iff_getElem.mp ascending j k (by simpa using order.trans bound)
    (by simpa using bound) order
  simpa using dated

/-- Between two consecutive points, the value changes by the flow from outside and by what was gained. -/
theorem value_change {transactions : List Transaction} {priceBarsBySymbol : Dict String (List PriceBar)}
    {startDate endDate : Date} {valuation : PortfolioValuation F}
    (built : buildPortfolioValuation .exact transactions priceBarsBySymbol startDate endDate = .ok valuation)
    (k : Nat) (bound : k + 1 < valuation.points.length) :
    valuation.points[k + 1].totalValue - valuation.points[k + 1].netExternalFlow - valuation.points[k].totalValue =
      gainBetween transactions priceBarsBySymbol startDate valuation.points[k].date valuation.points[k + 1].date := by
  obtain ⟨account, replayed, cash, value, _⟩ := points_explained built k (by omega)
  obtain ⟨account', replayed', cash', value', _⟩ := points_explained built (k + 1) bound
  have order := (points_dates built (Nat.lt_succ_self k) bound).le
  have flows : total PortfolioValuePoint.netExternalFlow (valuation.points.take (k + 1 + 1)) =
      total PortfolioValuePoint.netExternalFlow (valuation.points.take (k + 1)) +
        valuation.points[k + 1].netExternalFlow := by
    rw [List.take_succ_eq_append_getElem bound, RunningSum.total_append, RunningSum.total_cons, RunningSum.total_nil,
      add_zero]
  rw [value, value', cash, cash', accountOn_cash replayed, accountOn_cash replayed', flows,
    total_between Transaction.feesPaid transactions order, total_between Transaction.buyCost transactions order,
    total_between Transaction.sellProceeds transactions order, gainBetween]
  ring

/-- The return of the period between two points: growth apart from the flow from outside. -/
def returnBetween (previous current : PortfolioValuePoint) : F :=
  FloatArithmetic.ofRat ((current.totalValue - current.netExternalFlow) / previous.totalValue - 1)

/-- Each period return is computed from two consecutive points. -/
theorem periodReturns_eq {transactions : List Transaction} {priceBarsBySymbol : Dict String (List PriceBar)}
    {startDate endDate : Date} {valuation : PortfolioValuation F}
    (built : buildPortfolioValuation .exact transactions priceBarsBySymbol startDate endDate = .ok valuation) :
    valuation.periodReturns = (valuation.points.zip valuation.points.tail).map fun pair =>
      returnBetween pair.1 pair.2 := by
  obtain ⟨symbols, final, _, _, _, valued, summarized⟩ := buildPortfolioValuation_eq_ok built
  obtain ⟨latest, summarizes⟩ := summarize_eq_ok summarized
  have returns := summarizes.returns
  rw [← summarizes.points] at returns
  refine Except.ok.inj (returns.symm.trans (Checked.mapM_eq_ok fun pair member => ?_))
  obtain ⟨periodReturn, computed⟩ := Checked.exists_of_mapM_eq_ok returns pair member
  obtain ⟨solvent, computed⟩ := Checked.guard_eq_ok.mp computed
  obtain ⟨adjusted, computed⟩ := Checked.guard_eq_ok.mp computed
  obtain ⟨ratio, divided, _⟩ := Checked.bind_eq_ok.mp computed
  obtain ⟨_, rfl⟩ := divide_eq_ok.mp divided
  exact Checked.guard_eq_ok.mpr ⟨solvent, Checked.guard_eq_ok.mpr ⟨adjusted, Checked.bind_eq_ok.mpr ⟨_, divided, rfl⟩⟩⟩

/-- The period returns are made of gains alone. -/
theorem period_return {transactions : List Transaction} {priceBarsBySymbol : Dict String (List PriceBar)}
    {startDate endDate : Date} {valuation : PortfolioValuation F}
    (built : buildPortfolioValuation .exact transactions priceBarsBySymbol startDate endDate = .ok valuation)
    (k : Nat) (bound : k + 1 < valuation.points.length) :
    valuation.periodReturns[k]? = some (FloatArithmetic.ofRat ((valuation.points[k].totalValue +
      gainBetween transactions priceBarsBySymbol startDate valuation.points[k].date valuation.points[k + 1].date) /
        valuation.points[k].totalValue - 1)) := by
  have adjusted : valuation.points[k + 1].totalValue - valuation.points[k + 1].netExternalFlow =
      valuation.points[k].totalValue + gainBetween transactions priceBarsBySymbol startDate valuation.points[k].date
        valuation.points[k + 1].date := by
    rw [← value_change built k bound]
    ring
  have inside : k < (valuation.points.zip valuation.points.tail).length := by
    rw [List.length_zip, List.length_tail]
    omega
  rw [periodReturns_eq built, List.getElem?_map, List.getElem?_eq_getElem inside, Option.map_some, List.getElem_zip,
    List.getElem_tail, returnBetween, adjusted]

/-- At every point the cash is what came in from outside less the fees and what was bought, with what
was sold, of all transactions so far; so a flow from outside never shows in what a period gains. -/
theorem cash_conservation {transactions : List Transaction} {priceBarsBySymbol : Dict String (List PriceBar)}
    {startDate endDate : Date} {valuation : PortfolioValuation F}
    (built : buildPortfolioValuation .exact transactions priceBarsBySymbol startDate endDate = .ok valuation) :
    (∀ k (bound : k < valuation.points.length),
      valuation.points[k].cashBalance =
        total PortfolioValuePoint.netExternalFlow (valuation.points.take (k + 1)) -
          total Transaction.feesPaid (transactions.filter fun t => t.utcDate ≤ valuation.points[k].date) -
          total Transaction.buyCost (transactions.filter fun t => t.utcDate ≤ valuation.points[k].date) +
          total Transaction.sellProceeds (transactions.filter fun t => t.utcDate ≤ valuation.points[k].date) ∧
      valuation.points[k].totalValue = valuation.points[k].cashBalance +
        marketValueOn transactions priceBarsBySymbol startDate valuation.points[k].date ∧
      ∃ account, accountOn transactions valuation.points[k].date =
        .ok (account, total PortfolioValuePoint.netExternalFlow (valuation.points.take (k + 1)))) ∧
    (∀ k (bound : k + 1 < valuation.points.length),
      valuation.points[k + 1].totalValue - valuation.points[k + 1].netExternalFlow - valuation.points[k].totalValue =
        gainBetween transactions priceBarsBySymbol startDate valuation.points[k].date valuation.points[k + 1].date ∧
      valuation.periodReturns[k]? = some (FloatArithmetic.ofRat ((valuation.points[k].totalValue +
        gainBetween transactions priceBarsBySymbol startDate valuation.points[k].date valuation.points[k + 1].date) /
          valuation.points[k].totalValue - 1))) := by
  refine ⟨fun k bound => ?_, fun k bound => ⟨value_change built k bound, period_return built k bound⟩⟩
  obtain ⟨account, replayed, cash, value, _⟩ := points_explained built k bound
  exact ⟨cash.trans (accountOn_cash replayed), value, account, replayed⟩

end Conservation

section Samples

attribute [local instance] Text.asciiDatabase FloatArithmetic.rational

theorem sample_cash_conserved : ∃ valuation : PortfolioValuation ℚ,
    buildPortfolioValuation .exact sampleLedger sampleBars (sampleDay 0) (sampleDay 7) = .ok valuation ∧
    ∀ k (bound : k + 1 < valuation.points.length),
      valuation.points[k + 1].totalValue - valuation.points[k + 1].netExternalFlow - valuation.points[k].totalValue =
        gainBetween sampleLedger sampleBars (sampleDay 0) valuation.points[k].date valuation.points[k + 1].date := by
  obtain ⟨valuation, built⟩ := sample_built
  exact ⟨valuation, built, fun k bound => ((cash_conservation built).2 k bound).1⟩

end Samples
end LedgerLens

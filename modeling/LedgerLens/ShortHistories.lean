import LedgerLens.NarrativeGenerator
import LedgerLens.Requests
import LedgerLens.ValuationFromScratch

namespace LedgerLens
open Decimal (Context)

section Histories
variable {F : Type} [UnicodeDatabase] [FloatArithmetic F]

namespace PortfolioAnalyticsService

/-- The valuation an analysis of a ledger rests on. -/
def valuationOf (ctx : Context) (transactions : List Transaction) (startDate endDate : Date)
    (marketData : MarketData) : Except Error (PortfolioValuation F) := do
  let symbols ← requiredPriceSymbols ctx transactions startDate endDate
  let marketDataResults ← symbols.mapM fun symbol => marketData symbol startDate endDate
  let priceBarsBySymbol := (symbols.zip marketDataResults).foldl
    (fun bySymbol (symbol, result) => bySymbol.set symbol result.priceBars) Dict.empty
  buildPortfolioValuation ctx transactions priceBarsBySymbol startDate endDate

omit [UnicodeDatabase] [FloatArithmetic F] in
theorem asUnavailable_eq_ok {α : Type} {x : Except Error α} {a : α} : asUnavailable x = .ok a ↔ x = .ok a := by
  unfold asUnavailable
  split
  · simp
  · rfl

theorem analyze_eq_ok {ctx : Context} {methodology : AnalyticsMethodology} {ownerId portfolioId : UUID}
    {startDate endDate : Date} {marketData : MarketData} {world after : World F} {analytics : PortfolioAnalytics F}
    (run : (analyze ctx methodology ownerId portfolioId startDate endDate marketData).run world =
      (.ok analytics, after)) :
    ∃ valuation stale, valuationOf ctx (world.store.ledger portfolioId) startDate endDate marketData = .ok valuation ∧
      measure ctx methodology valuation stale = .ok analytics := by
  obtain ⟨found, _, get, run⟩ := Program.bind_eq_ok.mp run
  cases get.symm.trans (PortfolioRepository.get_run world portfolioId)
  obtain ⟨_, _, owned, run⟩ := Program.bind_eq_ok.mp run
  cases congrArg Prod.snd owned
  obtain ⟨transactions, _, list, run⟩ := Program.bind_eq_ok.mp run
  cases list.symm.trans (TransactionRepository.listForPortfolio_run world portfolioId)
  split at run
  · cases congrArg Prod.fst run
  · obtain ⟨symbols, _, required, run⟩ := Program.bind_eq_ok.mp run
    have required := asUnavailable_eq_ok.mp (congrArg Prod.fst required)
    split at run
    · cases congrArg Prod.fst run
    · obtain ⟨results, _, fetched, run⟩ := Program.bind_eq_ok.mp run
      obtain ⟨_, _, _, fetched⟩ := Program.bind_eq_ok.mp fetched
      have fetched : symbols.mapM (fun symbol => marketData symbol startDate endDate) = .ok results :=
        congrArg Prod.fst fetched
      obtain ⟨valuation, _, built, run⟩ := Program.bind_eq_ok.mp run
      have built := asUnavailable_eq_ok.mp (congrArg Prod.fst built)
      refine ⟨valuation, _, ?_, congrArg Prod.fst run⟩
      rw [valuationOf, required, Checked.ok_bind, fetched]
      exact built

omit [UnicodeDatabase] in
/-- Without a period return the drawdown is zero, not missing. -/
theorem measure_short {ctx : Context} {methodology : AnalyticsMethodology} {valuation : PortfolioValuation F}
    {stale : Bool} {analytics : PortfolioAnalytics F}
    (measured : measure ctx methodology valuation stale = .ok analytics)
    (short : valuation.periodReturns = []) :
    analytics.annualizedVolatility = none ∧ analytics.sharpeRatio = none ∧
      analytics.maxDrawdown = some (FloatArithmetic.ofRat 0) := by
  unfold measure at measured
  split at measured
  case h_2 => cases measured
  rw [Checked.ok_bind] at measured
  obtain ⟨volatility, computed, measured⟩ := Checked.bind_eq_ok.mp measured
  obtain ⟨sharpeRatio, divided, measured⟩ := Checked.bind_eq_ok.mp measured
  cases Checked.pure_eq_ok.mp measured
  rw [short] at computed divided ⊢
  obtain ⟨_, _, computed⟩ := Checked.bind_eq_ok.mp computed
  obtain ⟨_, _, divided⟩ := Checked.bind_eq_ok.mp divided
  obtain ⟨_, divided⟩ := Checked.guard_eq_ok.mp divided
  exact ⟨(Checked.pure_eq_ok.mp computed).symm, (Checked.pure_eq_ok.mp divided).symm, rfl⟩

end PortfolioAnalyticsService

open PortfolioAnalyticsService (valuationOf)

/-- The period returns of a valuation are those between its points. -/
theorem buildPortfolioValuation_returns {ctx : Context} {transactions : List Transaction}
    {priceBarsBySymbol : Dict String (List PriceBar)} {startDate endDate : Date} {valuation : PortfolioValuation F}
    (built : buildPortfolioValuation ctx transactions priceBarsBySymbol startDate endDate = .ok valuation) :
    cashFlowAdjustedReturns ctx valuation.points = .ok valuation.periodReturns := by
  obtain ⟨_, _, built⟩ := Checked.bind_eq_ok.mp built
  obtain ⟨_, _, built⟩ := Checked.bind_eq_ok.mp built
  obtain ⟨_, built⟩ := Checked.guard_eq_ok.mp built
  obtain ⟨_, _, built⟩ := Checked.bind_eq_ok.mp built
  obtain ⟨_, built⟩ := Checked.guard_eq_ok.mp built
  obtain ⟨_, _, built⟩ := Checked.bind_eq_ok.mp built
  obtain ⟨final, _, built⟩ := Checked.bind_eq_ok.mp built
  unfold summarize at built
  split at built
  · cases built
  · simp only at built
    split at built
    · cases built
    · obtain ⟨_, _, built⟩ := Checked.bind_eq_ok.mp built
      obtain ⟨_, _, built⟩ := Checked.bind_eq_ok.mp built
      obtain ⟨_, returns, built⟩ := Checked.bind_eq_ok.mp built
      cases Checked.pure_eq_ok.mp built
      exact returns

theorem buildPortfolioValuation_short {ctx : Context} {transactions : List Transaction}
    {priceBarsBySymbol : Dict String (List PriceBar)} {startDate endDate : Date} {valuation : PortfolioValuation F}
    (built : buildPortfolioValuation ctx transactions priceBarsBySymbol startDate endDate = .ok valuation)
    (short : valuation.points.length < 2) : valuation.periodReturns = [] := by
  have returns := buildPortfolioValuation_returns built
  match points : valuation.points with
  | [] | [_] =>
    rw [points] at returns
    exact (Checked.pure_eq_ok.mp returns).symm
  | _ :: _ :: _ =>
    rw [points] at short
    exact absurd short (by simp)

omit [UnicodeDatabase] in
/-- A drawdown that is a figure is never said to be unavailable. -/
theorem drawdownFactor_some (drawdown : F) :
    (drawdownFactor (some drawdown)).2 ≠ (drawdownFactor (none : Option F)).2 := by
  have figures : ∀ label : String, 9 ≤ label.toByteArray.data.toList.length →
      Text.leadingBytes 9 label = Text.leadingBytes 9 "Maximum historical" → ∀ rest,
        label ++ rest ≠ "Maximum drawdown is unavailable because the return history is insufficient." := by
    intro label enough starts rest same
    have bytes := congrArg (Text.leadingBytes 9) same
    rw [Text.leadingBytes_append enough, starts] at bytes
    revert bytes
    decide +kernel
  simp only [drawdownFactor]
  split
  · rw [String.append_assoc]
    exact figures _ (by decide) (by decide +kernel) _
  · split
    · rw [String.append_assoc]
      exact figures _ (by decide) (by decide +kernel) _
    · rw [String.append_assoc]
      exact figures _ (by decide) (by decide +kernel) _

/-- An insight over fewer than two valuation points is graded all the same, and quotes a drawdown of
zero as a figure. -/
theorem short_history_graded {ctx : Context} {methodology : AnalyticsMethodology} {ownerId portfolioId : UUID}
    {startDate endDate : Date} {marketData : MarketData} {generator : Option (InsightGenerator F)} {fresh : Fresh}
    {world after : World F} {insight : PortfolioInsight}
    (generated : (PortfolioInsightService.generate ctx methodology ownerId portfolioId startDate endDate marketData
      generator fresh).run world = (.ok insight, after)) :
    ∃ valuation : PortfolioValuation F,
      valuationOf ctx (world.store.ledger portfolioId) startDate endDate marketData = .ok valuation ∧
      (valuation.points.length < 2 →
        insight.riskLevel ≠ .insufficientData ∧
        insight.keyFactors[1]? = some (drawdownFactor (some (FloatArithmetic.ofRat 0 : F))).2 ∧
        insight.keyFactors[1]? ≠ some (drawdownFactor (none : Option F)).2) := by
  obtain ⟨analytics, analyzed, run, concluded⟩ := Program.bind_eq_ok.mp generated
  obtain ⟨valuation, stale, valued, measured⟩ := PortfolioAnalyticsService.analyze_eq_ok run
  refine ⟨valuation, valued, fun short => ?_⟩
  have returns : valuation.periodReturns = [] := by
    obtain ⟨_, _, valued⟩ := Checked.bind_eq_ok.mp valued
    obtain ⟨_, _, built⟩ := Checked.bind_eq_ok.mp valued
    exact buildPortfolioValuation_short built short
  obtain ⟨volatility, sharpeRatio, drawdown⟩ := PortfolioAnalyticsService.measure_short measured returns
  have judged : SameJudgement (generateDeterministicInsight analytics) insight := by
    obtain ⟨narrated', next, narrates, stored⟩ := Program.bind_eq_ok.mp concluded
    rw [narrate_run] at narrates
    obtain ⟨_, _, _, returned⟩ := Program.bind_eq_ok.mp stored
    cases congrArg Prod.fst narrates
    cases congrArg Prod.fst returned
    exact narrated_judgement generator _ analytics
  have factor : insight.keyFactors[1]? = some (drawdownFactor (some (FloatArithmetic.ofRat 0 : F))).2 := by
    rw [judged.keyFactors, generateDeterministicInsight, drawdown]
    rfl
  refine ⟨?_, factor, ?_⟩
  · rw [judged.riskLevel, generateDeterministicInsight]
    simp only [volatility, sharpeRatio, drawdown, riskLevelOf, List.all_cons, Option.isNone_some, Bool.false_and,
      Bool.and_false]
    split
    · simp_all
    · split
      · simp
      · split <;> simp
  · rw [factor]
    exact fun same => drawdownFactor_some _ (Option.some.inj same)

end Histories

section Samples
open PortfolioAnalyticsService (valuationOf)

attribute [local instance] Text.asciiDatabase FloatArithmetic.rational

def shortWiring : Wiring where
  parser _ := .error (.transactionImportFormat "CSV header row is missing")
  methodology := {
    annualRiskFreeRate := .finite false 4 (-2)
    riskFreeRateAsOf := sampleDay 0
    riskFreeRateAssumption := "illustrative" }

def shortFresh (id : Nat) : Fresh where
  id := ⟨id⟩
  now := sampleTime 1
  aware := rfl

/-- A portfolio with one share bought on the first day. -/
def shortCalls : List (Call ℚ) :=
  [⟨⟨1⟩, .createPortfolio "Savings" "USD" ⟨2⟩⟩,
    ⟨⟨1⟩, .createTransaction ⟨2⟩
      { externalId := "first", transactionType := .buy, occurredAt := sampleTime 0, symbol := some "A",
        quantity := some (.finite false 1 0), unitPrice := some (.finite false 10 0) } (shortFresh 3)⟩]

/-- One bar of every symbol, on the first day. -/
def shortMarketData : MarketData := fun symbol _ _ => .ok { priceBars := [sampleBar symbol 0 10] }

def shortWorld : World ℚ := runCalls .exact shortWiring {} shortCalls

def shortInsight : Service ℚ PortfolioInsight :=
  PortfolioInsightService.generate .exact shortWiring.methodology ⟨1⟩ ⟨2⟩ (sampleDay 0) (sampleDay 7) shortMarketData
    none (shortFresh 4)

theorem short_insight_graded : ∃ (insight : PortfolioInsight) (after : World ℚ) (valuation : PortfolioValuation ℚ),
    shortInsight.run shortWorld = (.ok insight, after) ∧
    valuationOf .exact (shortWorld.store.ledger ⟨2⟩) (sampleDay 0) (sampleDay 7) shortMarketData = .ok valuation ∧
    valuation.points.length < 2 ∧ insight.riskLevel ≠ .insufficientData := by
  have returns : (shortInsight.run shortWorld).1.isOk := by decide +kernel
  have few : ((valuationOf (F := ℚ) .exact (shortWorld.store.ledger ⟨2⟩) (sampleDay 0) (sampleDay 7)
      shortMarketData).map fun valuation => valuation.points.length) = .ok 1 := by decide +kernel
  match run : shortInsight.run shortWorld with
  | (.error raised, after) =>
    rw [run] at returns
    cases returns
  | (.ok insight, after) =>
    obtain ⟨valuation, valued, graded⟩ := short_history_graded run
    obtain ⟨_, built, single⟩ := Checked.map_eq_ok.mp few
    cases valued.symm.trans built
    have short : valuation.points.length < 2 := by rw [single]; decide
    exact ⟨insight, after, valuation, rfl, valued, short, (graded short).1⟩

/-- One share, one bar: the risk is called moderate, the drawdown limited. -/
theorem single_bar_moderate :
    (shortInsight.run shortWorld).1.map (fun insight => (insight.riskLevel, insight.keyFactors[1]?)) =
      .ok (.moderate, some "Maximum historical drawdown is limited at 0.0%.") ∧
    (valuationOf (F := ℚ) .exact (shortWorld.store.ledger ⟨2⟩) (sampleDay 0) (sampleDay 7) shortMarketData).map
      (fun valuation => (valuation.points.length, valuation.periodReturns)) = .ok (1, []) := by
  constructor <;> decide +kernel

end Samples
end LedgerLens

import LedgerLens.CashConservation

namespace LedgerLens
open Decimal (Context)
open RunningSum (total)

theorem points_ext {points points' : List PortfolioValuePoint}
    (summaries : points.map PortfolioValuePoint.summary = points'.map PortfolioValuePoint.summary)
    (flows : ∀ k < points.length, total PortfolioValuePoint.netExternalFlow (points.take (k + 1)) =
      total PortfolioValuePoint.netExternalFlow (points'.take (k + 1))) : points = points' := by
  have length : points.length = points'.length := by simpa using congrArg List.length summaries
  have before : ∀ k ≤ points.length, total PortfolioValuePoint.netExternalFlow (points.take k) =
      total PortfolioValuePoint.netExternalFlow (points'.take k) := by
    intro k bound
    cases k with
    | zero => rfl
    | succ k => exact flows k bound
  refine List.ext_getElem length fun k bound bound' => ?_
  have summary : points[k].summary = points'[k].summary := by
    have entry := congrArg (·[k]?) summaries
    simpa [bound, bound'] using entry
  have flow := flows k bound
  rw [List.take_succ_eq_append_getElem bound, List.take_succ_eq_append_getElem bound', RunningSum.total_append,
    RunningSum.total_append, before k bound.le] at flow
  simp only [RunningSum.total_cons, RunningSum.total_nil, add_zero, add_right_inj] at flow
  obtain ⟨date, values⟩ := Prod.mk.inj summary
  obtain ⟨totalValue, cashBalance⟩ := Prod.mk.inj values
  exact PortfolioValuePoint.ext date totalValue cashBalance flow

section Histories
variable {F : Type}

/-- The points dated up to a day. -/
def PortfolioValuation.pointsUntil (valuation : PortfolioValuation F) (day : Date) : List PortfolioValuePoint :=
  valuation.points.filter fun point => point.date ≤ day

/-- The external flow of all points up to a day. -/
def PortfolioValuation.flowUntil (valuation : PortfolioValuation F) (day : Date) : ℚ :=
  total PortfolioValuePoint.netExternalFlow (valuation.pointsUntil day)

/-- The returns of the periods that end by a day. -/
def PortfolioValuation.returnsUntil (valuation : PortfolioValuation F) (day : Date) : List F :=
  valuation.periodReturns.take ((valuation.pointsUntil day).length - 1)

/-- The points up to a day come before the others. -/
theorem PortfolioValuation.pointsUntil_append {valuation : PortfolioValuation F}
    (ascending : (valuation.points.map PortfolioValuePoint.date).Pairwise (· < ·)) (day : Date) :
    ∃ rest, valuation.points = valuation.pointsUntil day ++ rest := by
  have sorted : valuation.points.Pairwise fun a b => a.date ≤ b.date :=
    (List.pairwise_map.mp ascending).imp le_of_lt
  have cut : valuation.pointsUntil day = valuation.points.takeWhile fun point => point.date ≤ day := by
    refine StableSort.filter_eq_takeWhile sorted fun a _ b _ order reached => ?_
    exact decide_eq_true (order.trans (of_decide_eq_true reached))
  exact ⟨_, cut ▸ List.takeWhile_append_dropWhile.symm⟩

theorem PortfolioValuation.pointsUntil_take {valuation : PortfolioValuation F}
    (ascending : (valuation.points.map PortfolioValuePoint.date).Pairwise (· < ·)) {day : Date} {k : Nat}
    (bound : k < (valuation.pointsUntil day).length) :
    (valuation.pointsUntil day).take (k + 1) = valuation.pointsUntil (valuation.pointsUntil day)[k].date := by
  have reached : (valuation.pointsUntil day)[k].date ≤ day := by
    simpa using (List.mem_filter.mp (List.getElem_mem bound)).2
  have sorted : (valuation.pointsUntil day).Pairwise fun a b => a.date < b.date :=
    (List.pairwise_map.mp ascending).filter _
  rw [← Timeline.filter_le_getElem sorted bound]
  exact Timeline.filter_filter_of_imp fun point _ early => early.trans reached

/-- The returns up to a day are those of the points up to the day. -/
theorem PortfolioValuation.returnsUntil_eq [FloatArithmetic F] {valuation : PortfolioValuation F}
    (ascending : (valuation.points.map PortfolioValuePoint.date).Pairwise (· < ·))
    (returns : valuation.periodReturns =
      (valuation.points.zip valuation.points.tail).map fun pair => returnBetween pair.1 pair.2) (day : Date) :
    valuation.returnsUntil day = ((valuation.pointsUntil day).zip (valuation.pointsUntil day).tail).map fun pair =>
      returnBetween pair.1 pair.2 := by
  obtain ⟨rest, split⟩ := valuation.pointsUntil_append ascending day
  have later : valuation.points.tail.take ((valuation.pointsUntil day).length - 1) =
      (valuation.pointsUntil day).tail := by
    rw [split]
    cases valuation.pointsUntil day <;> simp
  have pairs : (valuation.points.zip valuation.points.tail).take ((valuation.pointsUntil day).length - 1) =
      (valuation.pointsUntil day).zip (valuation.pointsUntil day).tail := by
    refine List.ext_getElem ?_ fun k bound bound' => ?_
    · rw [← later, split]
      simp
    · simp only [List.getElem_take, List.getElem_zip, ← later, split]
      simp at bound'
      rw [List.getElem_append_left (by omega)]
  rw [returnsUntil, returns, ← List.map_take, pairs]

end Histories

section FutureTrades
variable [UnicodeDatabase]

/-- A day with bars for the symbol of a trade, but for no symbol that was required without it. -/
def AddsDate (priceBarsBySymbol : Dict String (List PriceBar)) (startDate endDate : Date) (symbols : List String)
    (t : Transaction) (day : Date) : Prop :=
  t.utcDate ≤ endDate ∧ day ∉ marketCalendar priceBarsBySymbol startDate endDate symbols ∧
    ∃ symbol, t.symbol = some symbol ∧ ∃ bar ∈ rangeBars priceBarsBySymbol startDate endDate symbol, bar.date = day

section Ledgers
variable {earlier later : List Transaction} {t : Transaction} {priceBarsBySymbol : Dict String (List PriceBar)}
  {startDate endDate : Date}

omit [UnicodeDatabase] in
theorem filter_without {day : Date} (future : day < t.utcDate) :
    ((earlier ++ t :: later).filter fun t => t.utcDate ≤ day) = (earlier ++ later).filter fun t => t.utcDate ≤ day := by
  rw [List.filter_append, List.filter_cons_of_neg (by simpa using future), ← List.filter_append]

/-- A future trade changes nothing in what can be worked out for a day. -/
theorem pointOn_without {day : Date} (future : day < t.utcDate) :
    pointOn (earlier ++ t :: later) priceBarsBySymbol startDate day =
      pointOn (earlier ++ later) priceBarsBySymbol startDate day :=
  pointOn_congr startDate (filter_without future) fun _ => rfl

/-- It may only add its own symbol to those required. -/
theorem Requires.without {symbols symbols' : List String} (future : startDate < t.utcDate)
    (requires : Requires (earlier ++ later) startDate endDate symbols)
    (requires' : Requires (earlier ++ t :: later) startDate endDate symbols') (symbol : String) :
    symbol ∈ symbols' ↔ symbol ∈ symbols ∨ (t.utcDate ≤ endDate ∧ t.symbol = some symbol) := by
  have opening : ((earlier ++ t :: later).filter fun t => t.utcDate < startDate) =
      (earlier ++ later).filter fun t => t.utcDate < startDate := by
    rw [List.filter_append, List.filter_cons_of_neg (by simpa using future.le), ← List.filter_append]
  rw [requires.mem, requires'.mem, opening, or_assoc]
  refine or_congr_right ?_
  constructor
  · rintro ⟨other, member, after, before, own⟩
    rcases List.mem_append.mp member with early | rest
    · exact .inl ⟨other, List.mem_append_left later early, after, before, own⟩
    · rcases List.mem_cons.mp rest with rfl | late
      · exact .inr ⟨before, own⟩
      · exact .inl ⟨other, List.mem_append_right earlier late, after, before, own⟩
  · rintro (⟨other, member, after, before, own⟩ | ⟨before, own⟩)
    · refine ⟨other, ?_, after, before, own⟩
      rcases List.mem_append.mp member with early | late
      · exact List.mem_append_left _ early
      · exact List.mem_append_right _ (List.mem_cons_of_mem t late)
    · exact ⟨t, by simp, future.le, before, own⟩

theorem mem_marketCalendar_without {symbols symbols' : List String} (future : startDate < t.utcDate)
    (requires : Requires (earlier ++ later) startDate endDate symbols)
    (requires' : Requires (earlier ++ t :: later) startDate endDate symbols') (day : Date) :
    day ∈ marketCalendar priceBarsBySymbol startDate endDate symbols' ↔
      day ∈ marketCalendar priceBarsBySymbol startDate endDate symbols ∨
        AddsDate priceBarsBySymbol startDate endDate symbols t day := by
  by_cases known : day ∈ marketCalendar priceBarsBySymbol startDate endDate symbols
  · refine iff_of_true ?_ (.inl known)
    obtain ⟨symbol, required, observed⟩ := mem_marketCalendar.mp known
    exact mem_marketCalendar.mpr ⟨symbol, (requires.without future requires' symbol).mpr (.inl required), observed⟩
  · rw [or_iff_right known]
    constructor
    · intro listed
      obtain ⟨symbol, required, observed⟩ := mem_marketCalendar.mp listed
      rcases (requires.without future requires' symbol).mp required with before | ⟨inRange, own⟩
      · exact absurd (mem_marketCalendar.mpr ⟨symbol, before, observed⟩) known
      · exact ⟨inRange, known, symbol, own, observed⟩
    · rintro ⟨inRange, _, symbol, own, observed⟩
      have required := (requires.without future requires' symbol).mpr (.inr ⟨inRange, own⟩)
      exact mem_marketCalendar.mpr ⟨symbol, required, observed⟩

end Ledgers

section Valuations
variable {F : Type} [FloatArithmetic F] {transactions : List Transaction}
  {priceBarsBySymbol : Dict String (List PriceBar)} {startDate endDate : Date} {valuation : PortfolioValuation F}

theorem flowUntil_point
    (built : buildPortfolioValuation .exact transactions priceBarsBySymbol startDate endDate = .ok valuation)
    {k : Nat} (bound : k < valuation.points.length) :
    valuation.flowUntil valuation.points[k].date =
      total PortfolioValuePoint.netExternalFlow (valuation.points.take (k + 1)) := by
  obtain ⟨_, _, _, _, ascending, _⟩ := valuation_from_scratch built
  exact congrArg (total _) (Timeline.filter_le_getElem (List.pairwise_map.mp ascending) bound)

/-- The flow up to a point is that of the ledger up to its day. -/
theorem accountOn_point
    (built : buildPortfolioValuation .exact transactions priceBarsBySymbol startDate endDate = .ok valuation)
    {point : PortfolioValuePoint} (member : point ∈ valuation.points) :
    ∃ account, accountOn transactions point.date = .ok (account, valuation.flowUntil point.date) := by
  obtain ⟨k, bound, rfl⟩ := List.getElem_of_mem member
  obtain ⟨account, replayed, _⟩ := points_explained built k bound
  exact ⟨account, (flowUntil_point built bound).symm ▸ replayed⟩

/-- The points up to a day, worked out from scratch. -/
theorem pointsUntil_summaries {symbols : List String}
    (required : requiredPriceSymbols .exact transactions startDate endDate = .ok symbols)
    (built : buildPortfolioValuation .exact transactions priceBarsBySymbol startDate endDate = .ok valuation)
    (day : Date) :
    (valuation.pointsUntil day).map PortfolioValuePoint.summary =
      ((marketCalendar priceBarsBySymbol startDate endDate symbols).filter (· ≤ day)).filterMap
        (pointOn transactions priceBarsBySymbol startDate) := by
  obtain ⟨symbols', required', _, points, _⟩ := valuation_from_scratch built
  cases Except.ok.inj (required.symm.trans required')
  rw [← Timeline.filter_filterMap (fun _ _ => pointOn_date), ← points, List.filter_map]
  rfl

end Valuations

section TwoRuns
variable {F : Type} [FloatArithmetic F] {earlier later : List Transaction} {t : Transaction}
  {priceBarsBySymbol : Dict String (List PriceBar)} {startDate endDate day : Date}
  {valuation valuation' : PortfolioValuation F} {symbols : List String}

/-- The points of the shorter ledger are those of the longer one on the market dates of the shorter. -/
theorem pointsUntil_without
    (built : buildPortfolioValuation .exact (earlier ++ later) priceBarsBySymbol startDate endDate = .ok valuation)
    (built' : buildPortfolioValuation .exact (earlier ++ t :: later) priceBarsBySymbol startDate endDate =
      .ok valuation')
    (required : requiredPriceSymbols .exact (earlier ++ later) startDate endDate = .ok symbols)
    (inRange : startDate ≤ day) (future : day < t.utcDate) :
    (valuation.pointsUntil day).map PortfolioValuePoint.summary =
      ((valuation'.pointsUntil day).filter fun point =>
        point.date ∈ marketCalendar priceBarsBySymbol startDate endDate symbols).map PortfolioValuePoint.summary := by
  obtain ⟨symbols', required', _⟩ := valuation_from_scratch built'
  have calendar : ∀ other, other ∈ marketCalendar priceBarsBySymbol startDate endDate symbols' ↔ _ :=
    mem_marketCalendar_without (inRange.trans_lt future) (requiredPriceSymbols_requires required)
      (requiredPriceSymbols_requires required')
  have restricted : (((marketCalendar priceBarsBySymbol startDate endDate symbols').filter (· ≤ day)).filter
      (· ∈ marketCalendar priceBarsBySymbol startDate endDate symbols)) =
      (marketCalendar priceBarsBySymbol startDate endDate symbols).filter (· ≤ day) := by
    refine Timeline.eq_of_ascending (((marketCalendar_ascending ..).filter _).filter _)
      ((marketCalendar_ascending ..).filter _) ?_
    intro other
    simp only [List.mem_filter, decide_eq_true_eq, calendar]
    tauto
  have dated : ((valuation'.pointsUntil day).filter fun point =>
      point.date ∈ marketCalendar priceBarsBySymbol startDate endDate symbols).map PortfolioValuePoint.summary =
      ((valuation'.pointsUntil day).map PortfolioValuePoint.summary).filter fun summary =>
        summary.1 ∈ marketCalendar priceBarsBySymbol startDate endDate symbols := by
    rw [List.filter_map]
    rfl
  rw [dated, pointsUntil_summaries required built, pointsUntil_summaries required' built',
    Timeline.filter_filterMap (fun _ _ => pointOn_date)
      (fun other => decide (other ∈ marketCalendar priceBarsBySymbol startDate endDate symbols)), restricted]
  refine List.filterMap_congr fun other listed => ?_
  have early : other ≤ day := by simpa using (List.mem_filter.mp listed).2
  exact (pointOn_without (early.trans_lt future)).symm

theorem flowUntil_without
    (built : buildPortfolioValuation .exact (earlier ++ later) priceBarsBySymbol startDate endDate = .ok valuation)
    (built' : buildPortfolioValuation .exact (earlier ++ t :: later) priceBarsBySymbol startDate endDate =
      .ok valuation')
    {point point' : PortfolioValuePoint} (member : point ∈ valuation.points) (member' : point' ∈ valuation'.points)
    (same : point.date = point'.date) (future : point.date < t.utcDate) :
    valuation.flowUntil point.date = valuation'.flowUntil point.date := by
  obtain ⟨account, replayed⟩ := accountOn_point built member
  obtain ⟨account', replayed'⟩ := accountOn_point built' member'
  rw [← same, accountOn, filter_without future, ← accountOn] at replayed'
  exact congrArg Prod.snd (Except.ok.inj (replayed.symm.trans replayed'))

/-- The histories agree up to a day unless some day before gains a point. -/
theorem pointsUntil_without_iff
    (built : buildPortfolioValuation .exact (earlier ++ later) priceBarsBySymbol startDate endDate = .ok valuation)
    (built' : buildPortfolioValuation .exact (earlier ++ t :: later) priceBarsBySymbol startDate endDate =
      .ok valuation')
    (required : requiredPriceSymbols .exact (earlier ++ later) startDate endDate = .ok symbols)
    (inRange : startDate ≤ day) (future : day < t.utcDate) :
    valuation.pointsUntil day = valuation'.pointsUntil day ↔
      ∀ other ≤ day, AddsDate priceBarsBySymbol startDate endDate symbols t other →
        pointOn (earlier ++ later) priceBarsBySymbol startDate other = none := by
  obtain ⟨_, _, _, _, ascending, _⟩ := valuation_from_scratch built
  obtain ⟨symbols', required', _, _, ascending', _⟩ := valuation_from_scratch built'
  have calendar : ∀ other, other ∈ marketCalendar priceBarsBySymbol startDate endDate symbols' ↔ _ :=
    mem_marketCalendar_without (inRange.trans_lt future) (requiredPriceSymbols_requires required)
      (requiredPriceSymbols_requires required')
  have summaries := pointsUntil_summaries required built day
  have summaries' := pointsUntil_summaries required' built' day
  constructor
  · intro same other early adds
    by_contra valued
    obtain ⟨summary, point⟩ := Option.ne_none_iff_exists'.mp valued
    have listed : summary ∈ (valuation'.pointsUntil day).map PortfolioValuePoint.summary := by
      rw [summaries']
      refine List.mem_filterMap.mpr ⟨other, ?_, (pointOn_without (early.trans_lt future)).trans point⟩
      exact List.mem_filter.mpr ⟨(calendar other).mpr (.inr adds), decide_eq_true early⟩
    rw [← same, summaries] at listed
    obtain ⟨known, visited, point'⟩ := List.mem_filterMap.mp listed
    cases (pointOn_date point').symm.trans (pointOn_date point)
    exact adds.2.1 (List.mem_filter.mp visited).1
  · intro nothing
    have kept : ∀ point ∈ valuation'.pointsUntil day,
        point.date ∈ marketCalendar priceBarsBySymbol startDate endDate symbols := by
      intro point member
      have listed := List.mem_map_of_mem (f := PortfolioValuePoint.summary) member
      rw [summaries'] at listed
      obtain ⟨other, visited, valued⟩ := List.mem_filterMap.mp listed
      obtain ⟨visited, reached⟩ := List.mem_filter.mp visited
      have early : other ≤ day := of_decide_eq_true reached
      have date : point.date = other := pointOn_date valued
      rw [date]
      refine ((calendar other).mp visited).resolve_right fun adds => ?_
      rw [pointOn_without (early.trans_lt future), nothing other early adds] at valued
      cases valued
    have same : (valuation.pointsUntil day).map PortfolioValuePoint.summary =
        (valuation'.pointsUntil day).map PortfolioValuePoint.summary := by
      rw [pointsUntil_without built built' required inRange future, List.filter_eq_self.mpr]
      exact fun point member => decide_eq_true (kept point member)
    have length : (valuation.pointsUntil day).length = (valuation'.pointsUntil day).length := by
      simpa using congrArg List.length same
    refine points_ext same fun k bound => ?_
    have bound' : k < (valuation'.pointsUntil day).length := length ▸ bound
    have date : (valuation.pointsUntil day)[k].date = (valuation'.pointsUntil day)[k].date := by
      have entry := congrArg (·[k]?) same
      simp only [List.getElem?_map, List.getElem?_eq_getElem bound, List.getElem?_eq_getElem bound', Option.map_some,
        Option.some.injEq] at entry
      exact congrArg Prod.fst entry
    obtain ⟨member, reached⟩ := List.mem_filter.mp (List.getElem_mem bound)
    have early : (valuation.pointsUntil day)[k].date ≤ day := of_decide_eq_true reached
    rw [PortfolioValuation.pointsUntil_take ascending bound, PortfolioValuation.pointsUntil_take ascending' bound',
      ← date]
    exact flowUntil_without built built' member (List.mem_of_mem_filter (List.getElem_mem bound')) date
      (early.trans_lt future)

/-- A future trade leaves the values of earlier days as they were, with the cash and all the flow
until then. It can only add points between them, on days on which nothing but its own symbol has a
bar; where it adds none, the points and the returns are the same. -/
theorem future_trade
    (built : buildPortfolioValuation .exact (earlier ++ later) priceBarsBySymbol startDate endDate = .ok valuation)
    (built' : buildPortfolioValuation .exact (earlier ++ t :: later) priceBarsBySymbol startDate endDate =
      .ok valuation')
    (inRange : startDate ≤ day) (future : day < t.utcDate) :
    ∃ symbols, requiredPriceSymbols .exact (earlier ++ later) startDate endDate = .ok symbols ∧
      (valuation.pointsUntil day).map PortfolioValuePoint.summary =
        ((valuation'.pointsUntil day).filter fun point =>
          point.date ∈ marketCalendar priceBarsBySymbol startDate endDate symbols).map PortfolioValuePoint.summary ∧
      (∀ point ∈ valuation.pointsUntil day, valuation.flowUntil point.date = valuation'.flowUntil point.date) ∧
      (valuation.pointsUntil day = valuation'.pointsUntil day ↔
        ∀ other ≤ day, AddsDate priceBarsBySymbol startDate endDate symbols t other →
          pointOn (earlier ++ later) priceBarsBySymbol startDate other = none) ∧
      (valuation.pointsUntil day = valuation'.pointsUntil day →
        valuation.returnsUntil day = valuation'.returnsUntil day) := by
  obtain ⟨symbols, required, _, _, ascending, _⟩ := valuation_from_scratch built
  obtain ⟨_, _, _, _, ascending', _⟩ := valuation_from_scratch built'
  have summaries := pointsUntil_without built built' required inRange future
  refine ⟨symbols, required, summaries, fun point member => ?_,
    pointsUntil_without_iff built built' required inRange future, fun same => ?_⟩
  · obtain ⟨listed, reached⟩ := List.mem_filter.mp member
    have early : point.date ≤ day := of_decide_eq_true reached
    have shared := List.mem_map_of_mem (f := PortfolioValuePoint.summary) member
    rw [summaries] at shared
    obtain ⟨point', member', summary⟩ := List.mem_map.mp shared
    have listed' := List.mem_of_mem_filter (List.mem_of_mem_filter member')
    exact flowUntil_without built built' listed listed' (congrArg Prod.fst summary).symm (early.trans_lt future)
  · rw [PortfolioValuation.returnsUntil_eq ascending (periodReturns_eq built),
      PortfolioValuation.returnsUntil_eq ascending' (periodReturns_eq built'), same]

end TwoRuns
end FutureTrades

section Samples

attribute [local instance] Text.asciiDatabase FloatArithmetic.rational

theorem sample_future_sale : ∃ (symbols : List String) (valuation valuation' : PortfolioValuation ℚ),
    requiredPriceSymbols .exact ([sampleTrade .buy "A" 0 2 10] ++ []) (sampleDay 0) (sampleDay 7) = .ok symbols ∧
    buildPortfolioValuation .exact ([sampleTrade .buy "A" 0 2 10] ++ []) sampleBars (sampleDay 0) (sampleDay 7) =
      .ok valuation ∧
    buildPortfolioValuation .exact ([sampleTrade .buy "A" 0 2 10] ++ sampleTrade .sell "A" 2 1 12 :: []) sampleBars
      (sampleDay 0) (sampleDay 7) = .ok valuation' ∧
    (valuation.pointsUntil (sampleDay 1)).map PortfolioValuePoint.summary =
      ((valuation'.pointsUntil (sampleDay 1)).filter fun point =>
        point.date ∈ marketCalendar sampleBars (sampleDay 0) (sampleDay 7) symbols).map
          PortfolioValuePoint.summary := by
  obtain ⟨valuation, built⟩ : ∃ valuation : PortfolioValuation ℚ, buildPortfolioValuation .exact
      ([sampleTrade .buy "A" 0 2 10] ++ []) sampleBars (sampleDay 0) (sampleDay 7) = .ok valuation :=
    Checked.exists_of_isOk (by decide +kernel)
  obtain ⟨valuation', built'⟩ : ∃ valuation' : PortfolioValuation ℚ, buildPortfolioValuation .exact
      ([sampleTrade .buy "A" 0 2 10] ++ sampleTrade .sell "A" 2 1 12 :: []) sampleBars (sampleDay 0) (sampleDay 7) =
        .ok valuation' :=
    Checked.exists_of_isOk (by decide +kernel)
  have inRange : sampleDay 0 ≤ sampleDay 1 := by decide +kernel
  have future : sampleDay 1 < (sampleTrade .sell "A" 2 1 12).utcDate := by decide +kernel
  obtain ⟨symbols, required, summaries, _⟩ := future_trade built built' inRange future
  exact ⟨symbols, valuation, valuation', required, built, built', summaries⟩

/-- A is quoted on the first and the fourth day, B on the third and the fourth. -/
def gappedBars : Dict String (List PriceBar) :=
  (Dict.empty.set "A" [sampleBar "A" 0 10, sampleBar "A" 3 13]).set "B" [sampleBar "B" 2 5, sampleBar "B" 3 5]

/-- Buying B on the fourth day makes the third a valuation date: its close is one more point in the
history of A, with a period return of its own. -/
theorem future_buy_adds_point : ∃ valuation valuation' : PortfolioValuation ℚ,
    buildPortfolioValuation .exact [sampleTrade .buy "A" 0 2 10] gappedBars (sampleDay 0) (sampleDay 7) =
      .ok valuation ∧
    buildPortfolioValuation .exact ([sampleTrade .buy "A" 0 2 10] ++ [sampleTrade .buy "B" 3 1 5]) gappedBars
      (sampleDay 0) (sampleDay 7) = .ok valuation' ∧
    sampleDay 2 < (sampleTrade .buy "B" 3 1 5).utcDate ∧
    (valuation.pointsUntil (sampleDay 2)).map PortfolioValuePoint.date = [sampleDay 0] ∧
    (valuation'.pointsUntil (sampleDay 2)).map PortfolioValuePoint.date = [sampleDay 0, sampleDay 2] ∧
    valuation.returnsUntil (sampleDay 2) = [] ∧ valuation'.returnsUntil (sampleDay 2) = [0] := by
  have shorter : (buildPortfolioValuation (F := ℚ) .exact [sampleTrade .buy "A" 0 2 10] gappedBars (sampleDay 0)
      (sampleDay 7)).map (fun valuation => ((valuation.pointsUntil (sampleDay 2)).map PortfolioValuePoint.date,
        valuation.returnsUntil (sampleDay 2))) = .ok ([sampleDay 0], []) := by
    decide +kernel
  have longer : (buildPortfolioValuation (F := ℚ) .exact
      ([sampleTrade .buy "A" 0 2 10] ++ [sampleTrade .buy "B" 3 1 5]) gappedBars (sampleDay 0) (sampleDay 7)).map
      (fun valuation => ((valuation.pointsUntil (sampleDay 2)).map PortfolioValuePoint.date,
        valuation.returnsUntil (sampleDay 2))) = .ok ([sampleDay 0, sampleDay 2], [0]) := by
    decide +kernel
  obtain ⟨valuation, built, before⟩ := Checked.map_eq_ok.mp shorter
  obtain ⟨valuation', built', after⟩ := Checked.map_eq_ok.mp longer
  obtain ⟨dates, returns⟩ := Prod.mk.inj before
  obtain ⟨dates', returns'⟩ := Prod.mk.inj after
  exact ⟨valuation, valuation', built, built', by decide +kernel, dates, dates', returns, returns'⟩

end Samples
end LedgerLens

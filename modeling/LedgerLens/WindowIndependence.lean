import LedgerLens.LatestSnapshot

namespace LedgerLens

section Windows
variable [UnicodeDatabase] {transactions : List Transaction} {priceBarsBySymbol : Dict String (List PriceBar)}
  {startDate endDate startDate' endDate' : Date} {symbols symbols' : List String}

theorem rangeBars_widen (starts : startDate' ≤ startDate) (ends : endDate ≤ endDate') (symbol : String) :
    rangeBars priceBarsBySymbol startDate endDate symbol =
      (rangeBars priceBarsBySymbol startDate' endDate' symbol).filter fun bar =>
        startDate ≤ bar.date ∧ bar.date ≤ endDate := by
  rw [rangeBars, rangeBars]
  refine (Timeline.filter_filter_of_imp fun bar _ inside => ?_).symm
  exact ⟨starts.trans inside.1, inside.2.trans ends⟩

/-- The days of a range are days of a wider one. -/
theorem marketCalendar_widen (requires : Requires transactions startDate endDate symbols)
    (wider : Requires transactions startDate' endDate' symbols') (starts : startDate' ≤ startDate)
    (ends : endDate ≤ endDate') {day : Date}
    (listed : day ∈ marketCalendar priceBarsBySymbol startDate endDate symbols) :
    day ∈ marketCalendar priceBarsBySymbol startDate' endDate' symbols' := by
  obtain ⟨symbol, required, bar, member, own⟩ := mem_marketCalendar.mp listed
  rw [rangeBars_widen starts ends] at member
  exact mem_marketCalendar.mpr
    ⟨symbol, requires.widen wider starts ends required, bar, List.mem_of_mem_filter member, own⟩

/-- A last price is still the last price when earlier bars are seen as well. -/
theorem lastPrice_widen {symbol : String} {table : Dict Date ℚ}
    (sound : TableOf (rangeBars priceBarsBySymbol startDate' endDate' symbol) table) (starts : startDate' ≤ startDate)
    {day : Date} (before : day ≤ endDate') {price : ℚ}
    (found : lastPrice priceBarsBySymbol startDate day symbol = some price) :
    lastPrice priceBarsBySymbol startDate' day symbol = some price := by
  rw [lastPrice_eq_rangeBars before] at found ⊢
  obtain ⟨bar, latest, rfl⟩ := Option.map_eq_some_iff.mp found
  have late : rangeBars priceBarsBySymbol startDate endDate' symbol =
      (rangeBars priceBarsBySymbol startDate' endDate' symbol).filter fun bar => startDate ≤ bar.date := by
    rw [rangeBars_widen starts le_rfl]
    refine List.filter_congr fun bar member => decide_eq_decide.mpr (and_iff_left ?_)
    exact (of_decide_eq_true (List.mem_filter.mp member).2).2
  rw [late] at latest
  rw [AsOf.latest_of_filter sound.distinct latest, Option.map_some]

/-- A point worked out from the bars of a range is worked out from those of a wider one as well. -/
theorem pointOn_widen (wider : Requires transactions startDate' endDate' symbols')
    (tables : ∀ symbol ∈ symbols', ∃ table, TableOf (rangeBars priceBarsBySymbol startDate' endDate' symbol) table)
    (starts : startDate' ≤ startDate) {day : Date} (after : startDate' ≤ day) (before : day ≤ endDate')
    {summary : Date × ℚ × ℚ} (valued : pointOn transactions priceBarsBySymbol startDate day = some summary) :
    pointOn transactions priceBarsBySymbol startDate' day = some summary := by
  obtain ⟨account, flow, replayed, valuable, rfl⟩ := pointOn_eq_some.mp valued
  have same : ∀ entry ∈ activePositions account.positions,
      lastPrice priceBarsBySymbol startDate day entry.1 = lastPrice priceBarsBySymbol startDate' day entry.1 := by
    intro entry active
    have held := active_iff.mp (List.mem_map_of_mem active)
    obtain ⟨table, sound⟩ := tables entry.1 (wider.active after before replayed held)
    obtain ⟨price, found⟩ := Option.isSome_iff_exists.mp (valuable.1 entry active)
    rw [found, lastPrice_widen sound starts before found]
  obtain ⟨sameCondition, sameValue⟩ := Valuable.congr same
  exact pointOn_eq_some.mpr ⟨account, flow, replayed, sameCondition.mp valuable, by rw [sameValue]⟩

/-- What a valuation says of a day does not depend on its range: the points of a range are among those of a
range around it. -/
theorem window_independent {F : Type} [FloatArithmetic F] {valuation valuation' : PortfolioValuation F}
    (starts : startDate' ≤ startDate) (ends : endDate ≤ endDate')
    (narrow : buildPortfolioValuation .exact transactions priceBarsBySymbol startDate endDate = .ok valuation)
    (wide : buildPortfolioValuation .exact transactions priceBarsBySymbol startDate' endDate' = .ok valuation') :
    ∀ point ∈ valuation.points, ∃ point' ∈ valuation'.points,
      point'.date = point.date ∧ point'.totalValue = point.totalValue ∧ point'.cashBalance = point.cashBalance := by
  intro point listed
  obtain ⟨symbols, final, _, requires, _, valued, summarized⟩ := buildPortfolioValuation_eq_ok narrow
  obtain ⟨symbols', final', _, wider, tables, valued', summarized'⟩ := buildPortfolioValuation_eq_ok wide
  obtain ⟨_, summarizes⟩ := summarize_eq_ok summarized
  obtain ⟨_, summarizes'⟩ := summarize_eq_ok summarized'
  have own : point.summary ∈ final.points.map PortfolioValuePoint.summary :=
    List.mem_map_of_mem (summarizes.points ▸ listed)
  rw [valued.points] at own
  obtain ⟨day, visited, today⟩ := List.mem_filterMap.mp own
  have visited' := marketCalendar_widen requires wider starts ends visited
  obtain ⟨after, before⟩ := marketCalendar_within visited'
  have also : point.summary ∈ final'.points.map PortfolioValuePoint.summary := by
    rw [valued'.points]
    exact List.mem_filterMap.mpr ⟨day, visited', pointOn_widen wider tables starts after before today⟩
  obtain ⟨point', listed', same⟩ := List.mem_map.mp also
  refine ⟨point', summarizes'.points ▸ listed', congrArg Prod.fst same, congrArg (·.2.1) same, congrArg (·.2.2) same⟩

end Windows

section Samples

attribute [local instance] Text.asciiDatabase FloatArithmetic.rational

/-- The last days of the sample, without the day of the purchase. -/
theorem sample_window : ∃ valuation valuation' : PortfolioValuation ℚ,
    buildPortfolioValuation .exact sampleLedger sampleBars (sampleDay 1) (sampleDay 3) = .ok valuation ∧
    buildPortfolioValuation .exact sampleLedger sampleBars (sampleDay 0) (sampleDay 7) = .ok valuation' ∧
    ∀ point ∈ valuation.points, ∃ point' ∈ valuation'.points,
      point'.date = point.date ∧ point'.totalValue = point.totalValue ∧ point'.cashBalance = point.cashBalance := by
  obtain ⟨valuation', wide⟩ := sample_built
  obtain ⟨valuation, narrow⟩ : ∃ valuation : PortfolioValuation ℚ,
      buildPortfolioValuation .exact sampleLedger sampleBars (sampleDay 1) (sampleDay 3) = .ok valuation :=
    Checked.exists_of_isOk (by decide +kernel)
  exact ⟨valuation, valuation', narrow, wide, window_independent (by decide) (by decide) narrow wide⟩

end Samples
end LedgerLens

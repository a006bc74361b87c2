import LedgerLens.DailyValues

namespace LedgerLens
open Decimal (Context)
open RunningSum (total)

/-- What a point says about its day, apart from the flow since the point before it. -/
def PortfolioValuePoint.summary (point : PortfolioValuePoint) : Date × ℚ × ℚ :=
  (point.date, point.totalValue, point.cashBalance)

/-- The transaction falls on or before the last day visited. -/
def Transaction.reachedBy (last : Option Date) (t : Transaction) : Bool := last.any fun day => t.utcDate ≤ day

theorem assetValues_eq_ok {positions latestPrices : Dict String ℚ}
    (priced : ∀ entry ∈ activePositions positions, (latestPrices.get? entry.1).isSome) :
    assetValues .exact positions latestPrices =
      .ok ((activePositions positions).map fun entry => (entry.1, entry.2 * (latestPrices.get? entry.1).getD 0)) := by
  refine Checked.mapM_eq_ok fun entry listed => ?_
  obtain ⟨price, found⟩ := Option.isSome_iff_exists.mp (priced entry listed)
  simp [found]

theorem priced_of_not_any {positions latestPrices : Dict String ℚ}
    (all : ¬ (activePositions positions).any fun entry => (latestPrices.get? entry.1).isNone) :
    ∀ entry ∈ activePositions positions, (latestPrices.get? entry.1).isSome := by
  intro entry listed
  by_contra unpriced
  exact all (List.any_eq_true.mpr ⟨entry, listed, by simpa using unpriced⟩)

variable [UnicodeDatabase]

/-- One pass of the loop: the day's transactions are applied, and a point is added if the day is valuable. -/
theorem visitDate_eq_ok {prices : Dict String (Dict Date ℚ)} {state next : ReplayState} {day : Date}
    (run : visitDate .exact prices state day = .ok next) :
    ∃ account pending remaining,
      replayThrough .exact day state.account state.pendingExternalFlow state.remaining =
        .ok (account, pending, remaining) ∧
      next.remaining = remaining ∧ next.account = account ∧
      next.latestPrices = observePrices prices day state.latestPrices ∧
      ((Valuable next.latestPrices.get? account ∧ next.pendingExternalFlow = 0 ∧
          next.points = state.points ++ [⟨day,
            account.cashBalance + marketValue next.latestPrices.get? account.positions,
            account.cashBalance, pending⟩]) ∨
        (¬ Valuable next.latestPrices.get? account ∧ next.pendingExternalFlow = pending ∧
          next.points = state.points)) := by
  obtain ⟨⟨account, pending, remaining⟩, replayed, run⟩ := Checked.bind_eq_ok.mp run
  refine ⟨account, pending, remaining, replayed, ?_⟩
  simp only at run
  split at run
  · next missing =>
    cases Checked.pure_eq_ok.mp run
    refine ⟨rfl, rfl, rfl, .inr ⟨fun valuable => ?_, rfl, rfl⟩⟩
    obtain ⟨entry, listed, unpriced⟩ := List.any_eq_true.mp missing
    have priced := valuable.1 entry listed
    simp_all
  · next all =>
    have priced := priced_of_not_any all
    obtain ⟨values, assets, run⟩ := Checked.bind_eq_ok.mp run
    cases Except.ok.inj (assets.symm.trans (assetValues_eq_ok priced))
    have summed : Context.exact.add account.cashBalance (Context.exact.sum
        (((activePositions account.positions).map fun entry =>
          (entry.1, entry.2 * ((observePrices prices day state.latestPrices).get? entry.1).getD 0)).map Prod.snd)) =
        account.cashBalance + marketValue (observePrices prices day state.latestPrices).get? account.positions := by
      rw [Context.exact_add, Context.exact_sum, List.map_map]
      rfl
    rw [summed] at run
    split at run
    · next worthless =>
      cases Checked.pure_eq_ok.mp run
      exact ⟨rfl, rfl, rfl, .inr ⟨fun valuable => absurd valuable.2 (not_lt.mpr worthless), rfl, rfl⟩⟩
    · next positive =>
      cases Checked.pure_eq_ok.mp run
      exact ⟨rfl, rfl, rfl, .inl ⟨⟨priced, not_le.mp positive⟩, rfl, rfl⟩⟩

section Loop
variable (transactions : List Transaction) (priceBarsBySymbol : Dict String (List PriceBar)) (startDate endDate : Date)
  (symbols : List String)

/-- Where the loop stands once it has visited some days: the account and the prices are those of the
last day, the points are those of the days visited, and no flow is lost between them. -/
structure ValuedThrough (seen : List Date) (state : ReplayState) : Prop where
  account : replay .exact ((ledgerSorted (transactions.filter fun t => t.utcDate ≤ endDate)).takeWhile
      (Transaction.reachedBy seen.getLast?)) =
    .ok (state.account, total PortfolioValuePoint.netExternalFlow state.points + state.pendingExternalFlow)
  remaining : state.remaining = (ledgerSorted (transactions.filter fun t => t.utcDate ≤ endDate)).dropWhile
    (Transaction.reachedBy seen.getLast?)
  prices : ∀ symbol ∈ symbols, state.latestPrices.get? symbol =
    seen.getLast?.bind fun day => lastPrice priceBarsBySymbol startDate day symbol
  points : state.points.map PortfolioValuePoint.summary =
    seen.filterMap (pointOn transactions priceBarsBySymbol startDate)
  flows : ∀ k (bound : k < state.points.length), ∃ account,
    accountOn transactions state.points[k].date =
      .ok (account, total PortfolioValuePoint.netExternalFlow (state.points.take (k + 1))) ∧
    valueOn priceBarsBySymbol startDate state.points[k].date account = some state.points[k].totalValue ∧
    state.points[k].cashBalance = account.cashBalance

theorem ValuedThrough.start : ValuedThrough transactions priceBarsBySymbol startDate endDate symbols []
    { remaining := ledgerSorted (transactions.filter fun t => t.utcDate ≤ endDate) } where
  account := by
    have nothingReached : (ledgerSorted (transactions.filter fun t => t.utcDate ≤ endDate)).takeWhile
        (Transaction.reachedBy ([] : List Date).getLast?) = [] := by
      cases ledgerSorted (transactions.filter fun t => t.utcDate ≤ endDate) <;> rfl
    rw [nothingReached]
    exact congrArg (fun flow => Except.ok (({} : Account), flow)) (zero_add (0 : ℚ)).symm
  remaining := by
    cases ledgerSorted (transactions.filter fun t => t.utcDate ≤ endDate) <;> rfl
  prices _ _ := rfl
  points := rfl
  flows _ bound := nomatch bound

variable {transactions priceBarsBySymbol startDate endDate symbols}

omit [UnicodeDatabase] in
/-- The ledger of the range cut at a day of it is the ledger cut at that day. -/
theorem ledgerSorted_reachedBy {day : Date} (within : day ≤ endDate) :
    (ledgerSorted (transactions.filter fun t => t.utcDate ≤ endDate)).takeWhile (Transaction.reachedBy (some day)) =
      ledgerSorted (transactions.filter fun t => t.utcDate ≤ day) := by
  refine (ledgerSorted_cut _ day).trans (congrArg ledgerSorted ?_)
  exact Timeline.filter_filter_of_imp fun t _ early => early.trans within

/-- The ledger cut at a day of the range is the account of that day. -/
theorem replay_reachedBy {day : Date} (within : day ≤ endDate) :
    replay .exact ((ledgerSorted (transactions.filter fun t => t.utcDate ≤ endDate)).takeWhile
      (Transaction.reachedBy (some day))) = accountOn transactions day :=
  congrArg (replay .exact) (ledgerSorted_reachedBy within)

/-- The account the loop has arrived at is that of the last day visited. -/
theorem ValuedThrough.accountOn_last {seen : List Date} {state : ReplayState}
    (valued : ValuedThrough transactions priceBarsBySymbol startDate endDate symbols seen state)
    (within : ∀ day ∈ seen, day ≤ endDate) {day : Date} (last : seen.getLast? = some day) :
    accountOn transactions day =
      .ok (state.account, total PortfolioValuePoint.netExternalFlow state.points + state.pendingExternalFlow) := by
  rw [← replay_reachedBy (within day (List.mem_of_getLast? last)), ← last]
  exact valued.account

/-- The prices known after a day are its last prices. -/
theorem ValuedThrough.observe {prices : Dict String (Dict Date ℚ)}
    (known : PricesOf priceBarsBySymbol startDate endDate symbols prices) {seen later : List Date} {day : Date}
    (calendar : marketCalendar priceBarsBySymbol startDate endDate symbols = seen ++ day :: later)
    {state : ReplayState} (valued : ValuedThrough transactions priceBarsBySymbol startDate endDate symbols seen state)
    {symbol : String} (required : symbol ∈ symbols) :
    (observePrices prices day state.latestPrices).get? symbol = lastPrice priceBarsBySymbol startDate day symbol := by
  have within : ∀ other ∈ seen ++ day :: later, other ≤ endDate := fun other listed =>
    (marketCalendar_within (calendar ▸ listed)).2
  have ascending : (seen ++ day :: later).Pairwise (· < ·) := calendar ▸ marketCalendar_ascending ..
  obtain ⟨table, found, priced⟩ := known.table symbol required
  have complete : ∀ bar ∈ rangeBars priceBarsBySymbol startDate endDate symbol, bar.date ∈ seen ++ day :: later :=
    fun bar member => calendar ▸ mem_marketCalendar.mpr ⟨symbol, required, bar, member, rfl⟩
  rw [observePrices_get?, found, Option.bind_some, priced.find, valued.prices symbol required,
    lastPrice_eq_rangeBars (within day (by simp)), AsOf.latest_next priced.distinct ascending complete, Option.map_or]
  refine congrArg (Option.or _) ?_
  cases last : seen.getLast? with
  | none => rfl
  | some earlier =>
    have visited : earlier ∈ seen := List.mem_of_getLast? last
    exact lastPrice_eq_rangeBars (within earlier (List.mem_append_left _ visited)) symbol

theorem pointOn_of_account {day : Date} {account : Account} {flow : ℚ}
    (run : accountOn transactions day = .ok (account, flow)) :
    pointOn transactions priceBarsBySymbol startDate day =
      (valueOn priceBarsBySymbol startDate day account).map fun totalValue =>
        (day, totalValue, account.cashBalance) := by
  rw [pointOn, run]

/-- Visiting the next day of the calendar. -/
theorem ValuedThrough.visit {prices : Dict String (Dict Date ℚ)}
    (requires : Requires transactions startDate endDate symbols)
    (known : PricesOf priceBarsBySymbol startDate endDate symbols prices) {seen later : List Date} {day : Date}
    (calendar : marketCalendar priceBarsBySymbol startDate endDate symbols = seen ++ day :: later)
    {state next : ReplayState}
    (valued : ValuedThrough transactions priceBarsBySymbol startDate endDate symbols seen state)
    (run : visitDate .exact prices state day = .ok next) :
    ValuedThrough transactions priceBarsBySymbol startDate endDate symbols (seen ++ [day]) next := by
  obtain ⟨after, before⟩ := marketCalendar_within (calendar ▸ List.mem_append_right seen List.mem_cons_self)
  have ascending : (seen ++ day :: later).Pairwise (· < ·) := calendar ▸ marketCalendar_ascending ..
  have weaker : ∀ t : Transaction, t.reachedBy seen.getLast? → t.reachedBy (some day) := by
    intro t reached
    obtain ⟨earlier, last, early⟩ := (Option.any_eq_true ..).mp reached
    have order := (List.pairwise_append.mp ascending).2.2 earlier (List.mem_of_getLast? last) day List.mem_cons_self
    exact decide_eq_true ((of_decide_eq_true early).trans order.le)
  obtain ⟨account, pending, remaining, replayed, rest, own, latest, outcome⟩ := visitDate_eq_ok run
  obtain ⟨taken, dropped⟩ :=
    Timeline.takeWhile_append_dropWhile weaker (ledgerSorted (transactions.filter fun t => t.utcDate ≤ endDate))
  have convertible : ∀ t ∈ state.remaining, t.occurredAt.astimezoneUtc.isSome := by
    intro t member
    rw [valued.remaining] at member
    have listed := StableSort.mem_sortOn.mp ((List.dropWhile_sublist _).subset member)
    exact (requires.checked t (List.mem_of_mem_filter listed)).2
  rw [replayThrough_eq .exact day convertible] at replayed
  obtain ⟨⟨account', pending'⟩, folded, result⟩ := Checked.bind_eq_ok.mp replayed
  cases Checked.pure_eq_ok.mp result
  have applied : accountOn transactions day =
      .ok (account, total PortfolioValuePoint.netExternalFlow state.points + pending) := by
    rw [← replay_reachedBy before, taken]
    refine Checked.foldlM_append_eq_ok.mpr ⟨_, valued.account, ?_⟩
    rw [← valued.remaining]
    exact applyNext_foldlM_shift folded _
  have prices : ∀ symbol ∈ symbols, next.latestPrices.get? symbol = lastPrice priceBarsBySymbol startDate day symbol :=
    fun symbol required => latest ▸ valued.observe known calendar required
  have sameActive : ∀ entry ∈ activePositions account.positions,
      next.latestPrices.get? entry.1 = lastPrice priceBarsBySymbol startDate day entry.1 := by
    intro entry listed
    have held := active_iff.mp (List.mem_map_of_mem listed)
    exact prices _ (requires.active after before applied held)
  obtain ⟨sameCondition, sameValue⟩ := Valuable.congr sameActive
  have value : valueOn priceBarsBySymbol startDate day account =
      if Valuable next.latestPrices.get? account then
        some (account.cashBalance + marketValue next.latestPrices.get? account.positions) else none := by
    unfold valueOn
    simp only [sameCondition, sameValue]
  have position : next.remaining = (ledgerSorted (transactions.filter fun t => t.utcDate ≤ endDate)).dropWhile
      (Transaction.reachedBy (seen ++ [day]).getLast?) := by
    rw [List.getLast?_concat, rest, valued.remaining, dropped]
    rfl
  have observed : ∀ symbol ∈ symbols, next.latestPrices.get? symbol =
      (seen ++ [day]).getLast?.bind fun day => lastPrice priceBarsBySymbol startDate day symbol := by
    intro symbol required
    rw [List.getLast?_concat, Option.bind_some]
    exact prices symbol required
  have today : pointOn transactions priceBarsBySymbol startDate day = _ := pointOn_of_account applied
  rcases outcome with ⟨valuable, settled, appended⟩ | ⟨worthless, carried, unchanged⟩
  · have flow : total PortfolioValuePoint.netExternalFlow next.points =
        total PortfolioValuePoint.netExternalFlow state.points + pending := by
      rw [appended, RunningSum.total_append, RunningSum.total_cons, RunningSum.total_nil, add_zero]
    rw [if_pos valuable] at value
    refine ⟨?_, position, observed, ?_, fun k bound => ?_⟩
    · rw [List.getLast?_concat, replay_reachedBy before, applied, own, settled, flow, add_zero]
    · rw [value] at today
      simp only [appended, List.map_append, List.map_singleton, valued.points, List.filterMap_append,
        List.filterMap_cons, today, Option.map_some, List.filterMap_nil, PortfolioValuePoint.summary]
    · simp only [appended, List.length_append, List.length_singleton] at bound
      rcases Nat.lt_or_ge k state.points.length with old | new
      · simp only [appended, List.getElem_append_left old, List.take_append_of_le_length (Nat.succ_le_of_lt old)]
        exact valued.flows k old
      · have last : k = state.points.length := by omega
        subst last
        simp only [appended, List.getElem_concat_length]
        refine ⟨account, ?_, value, rfl⟩
        rw [List.take_of_length_le (by simp), applied, ← appended, flow]
  · rw [if_neg worthless] at value
    refine ⟨?_, position, observed, ?_, fun k bound => ?_⟩
    · rw [List.getLast?_concat, replay_reachedBy before, applied, own, carried, unchanged]
    · rw [value] at today
      simp only [unchanged, valued.points, List.filterMap_append, List.filterMap_cons, today, Option.map_none,
        List.filterMap_nil, List.append_nil]
    · simp only [unchanged] at bound ⊢
      exact valued.flows k bound

/-- A pass of the loop over the first days of the calendar. -/
theorem ValuedThrough.of_run {prices : Dict String (Dict Date ℚ)}
    (requires : Requires transactions startDate endDate symbols)
    (known : PricesOf priceBarsBySymbol startDate endDate symbols prices) {seen later : List Date}
    (calendar : marketCalendar priceBarsBySymbol startDate endDate symbols = seen ++ later) {state : ReplayState}
    (run : seen.foldlM (visitDate .exact prices)
      { remaining := ledgerSorted (transactions.filter fun t => t.utcDate ≤ endDate) } = .ok state) :
    ValuedThrough transactions priceBarsBySymbol startDate endDate symbols seen state := by
  refine Checked.foldlM_prefix_invariant (ValuedThrough transactions priceBarsBySymbol startDate endDate symbols)
    (.start ..) run ?_
  intro earlier day rest state next split valued step
  have whole : marketCalendar priceBarsBySymbol startDate endDate symbols = earlier ++ day :: (rest ++ later) := by
    rw [calendar, split, List.append_assoc, List.cons_append]
  exact valued.visit requires known whole step

end Loop

/-- A valuation that is returned comes from a pass of the loop over the whole calendar. -/
theorem buildPortfolioValuation_eq_ok {F : Type} [FloatArithmetic F] {transactions : List Transaction}
    {priceBarsBySymbol : Dict String (List PriceBar)} {startDate endDate : Date} {valuation : PortfolioValuation F}
    (run : buildPortfolioValuation .exact transactions priceBarsBySymbol startDate endDate = .ok valuation) :
    ∃ symbols final, requiredPriceSymbols .exact transactions startDate endDate = .ok symbols ∧
      Requires transactions startDate endDate symbols ∧
      (∀ symbol ∈ symbols, ∃ table, TableOf (rangeBars priceBarsBySymbol startDate endDate symbol) table) ∧
      ValuedThrough transactions priceBarsBySymbol startDate endDate symbols
        (marketCalendar priceBarsBySymbol startDate endDate symbols) final ∧
      summarize .exact final = .ok valuation := by
  obtain ⟨_, _, run⟩ := Checked.bind_eq_ok.mp run
  obtain ⟨symbols, required, run⟩ := Checked.bind_eq_ok.mp run
  obtain ⟨_, run⟩ := Checked.guard_eq_ok.mp run
  obtain ⟨prices, validated, run⟩ := Checked.bind_eq_ok.mp run
  obtain ⟨_, run⟩ := Checked.guard_eq_ok.mp run
  obtain ⟨ordered, sorted, run⟩ := Checked.bind_eq_ok.mp run
  obtain ⟨final, looped, summarized⟩ := Checked.bind_eq_ok.mp run
  have requires := requiredPriceSymbols_requires required
  have known := validatedPrices_pricesOf validated
  obtain ⟨_, rfl⟩ := orderedTransactions_eq_ok.mp sorted
  rw [known.calendar] at looped
  refine ⟨symbols, final, required, requires, fun symbol listed => ?_, ?_, summarized⟩
  · obtain ⟨table, _, priced⟩ := known.table symbol listed
    exact ⟨table, priced⟩
  · exact .of_run requires known (List.append_nil _).symm looped

end LedgerLens

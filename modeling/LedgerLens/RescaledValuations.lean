import LedgerLens.UnitChanges

namespace LedgerLens
open Decimal (Context Rescaled)
open Checked (Parallel)
variable {ctx : Context} {units : Units ctx}

section Prices

/-- The prices of a symbol by date, in the other units. -/
def Units.table (units : Units ctx) (symbol : String) (table : Dict Date ℚ) : Dict Date ℚ :=
  table.mapValues fun _ price => units.price symbol * price

def Units.tables (units : Units ctx) (tables : Dict String (Dict Date ℚ)) : Dict String (Dict Date ℚ) :=
  tables.mapValues units.table

variable [UnicodeDatabase]

theorem addPriceBar_rescaled (symbol : String) (startDate endDate : Date) (table : Dict Date ℚ) {bar bar' : PriceBar}
    (same : units.SameBar bar bar') :
    Parallel Eq (fun next next' => next' = units.table symbol next) (addPriceBar symbol startDate endDate table bar)
      (addPriceBar symbol startDate endDate (units.table symbol table) bar') := by
  obtain ⟨unchanged, adjustedClose⟩ := same
  have own : bar'.symbol = bar.symbol := by rw [unchanged]
  have date : bar'.date = bar.date := by rw [unchanged]
  unfold addPriceBar
  rw [own, date]
  refine .guard Iff.rfl rfl fun matching => ?_
  rw [not_not.mp matching] at adjustedClose
  have scaled := adjustedClose.value
  have sign : bar'.adjustedClose.value ≤ 0 ↔ bar.adjustedClose.value ≤ 0 := by
    rw [scaled, ← not_lt, mul_pos_iff_of_pos_left (units.price_pos symbol), not_lt]
  refine .guard (by rw [adjustedClose.finite, sign]) rfl fun _ => ?_
  split
  · exact .ok rfl
  · refine .guard ?_ rfl fun _ => .ok ?_
    · rw [Units.table, Dict.mapValues_get?, Option.isSome_map]
    · rw [scaled]
      exact (Dict.mapValues_set _ _ _ _).symm

omit [UnicodeDatabase] in
/-- Bringing the symbols into capitals leaves related series under each. -/
theorem normalizedInput_related [UnicodeDatabase] {R : List PriceBar → List PriceBar → Prop}
    {bars bars' : Dict String (List PriceBar)} (related : bars.Related R bars') :
    (normalizedInput bars).Related R (normalizedInput bars') := by
  have filled : ∀ normalized normalized' : Dict String (List PriceBar), normalized.Related R normalized' →
      (bars.entries.foldl (fun normalized entry => normalized.set (Text.upper entry.1) entry.2) normalized).Related R
        (bars'.entries.foldl (fun normalized entry => normalized.set (Text.upper entry.1) entry.2) normalized') := by
    unfold Dict.Related at related
    generalize bars.entries = entries, bars'.entries = entries' at related ⊢
    induction related with
    | nil => exact fun _ _ same => same
    | @cons entry entry' rest rest' head tail ih =>
      intro normalized normalized' same
      rw [List.foldl_cons, List.foldl_cons, ← head.1]
      exact ih _ _ (same.set _ head.2)
  exact filled .empty .empty Dict.related_empty

theorem validatedPrices_rescaled (symbols : List String) (startDate endDate : Date)
    {bars bars' : Dict String (List PriceBar)} (same : bars.Related (List.Forall₂ units.SameBar) bars') :
    Parallel Eq (fun prices prices' => prices' = units.tables prices)
      (validatedPrices symbols bars startDate endDate) (validatedPrices symbols bars' startDate endDate) := by
  refine .foldlM (fun prices prices' symbol related => ?_) rfl
  subst related
  have series := (normalizedInput_related same).getD symbol (a := []) (b := []) .nil
  have filled : Parallel Eq (fun table table' => table' = units.table symbol table)
      (((normalizedInput bars).getD symbol []).foldlM (addPriceBar symbol startDate endDate) .empty)
      (((normalizedInput bars').getD symbol []).foldlM (addPriceBar symbol startDate endDate) .empty) := by
    refine .foldlM_forall₂ series (fun table table' bar bar' related head => ?_) rfl
    subst related
    exact addPriceBar_rescaled symbol startDate endDate table head
  refine filled.bind fun table table' scaled => ?_
  subst scaled
  refine .guard ?_ rfl fun _ => .ok (Dict.mapValues_set _ _ _ _).symm
  rw [Units.table, Dict.mapValues_entries, List.map_eq_nil_iff]

omit [UnicodeDatabase]

theorem observePrices_rescaled (tables : Dict String (Dict Date ℚ)) (day : Date) (latest : Dict String ℚ) :
    observePrices (units.tables tables) day (units.prices latest) = units.prices (observePrices tables day latest) := by
  unfold observePrices
  rw [Units.tables, Dict.mapValues_entries]
  generalize tables.entries = entries
  induction entries generalizing latest with
  | nil => rfl
  | cons entry rest ih =>
    rw [List.map_cons, List.foldl_cons, List.foldl_cons, Units.table, Dict.mapValues_get?]
    cases entry.2.get? day with
    | none => exact ih latest
    | some price =>
      have observed : (units.prices latest).set entry.1 (units.price entry.1 * price) =
          units.prices (latest.set entry.1 price) := (Dict.mapValues_set _ _ _ _).symm
      rw [Option.map_some]
      simp only [observed]
      exact ih _

theorem calendar_rescaled (tables : Dict String (Dict Date ℚ)) :
    (units.tables tables).entries.flatMap (fun entry => entry.2.keys) =
      tables.entries.flatMap fun entry => entry.2.keys := by
  rw [Units.tables, Dict.mapValues_entries, List.flatMap_map]
  simp only [Units.table, Dict.mapValues_keys]

theorem prices_isNone (latest : Dict String ℚ) (symbol : String) :
    ((units.prices latest).get? symbol).isNone = (latest.get? symbol).isNone := by
  rw [Units.prices, Dict.mapValues_get?, Option.isNone_map]

/-- The value of a holding, as an amount of money. -/
def Units.holding (units : Units ctx) (holding : String × ℚ) : String × ℚ := (holding.1, units.money * holding.2)

theorem assetValues_rescaled (positions latest : Dict String ℚ) :
    Parallel Eq (fun values values' => values' = values.map units.holding) (assetValues ctx positions latest)
      (assetValues ctx (units.quantities positions) (units.prices latest)) := by
  unfold assetValues
  rw [activePositions_rescaled]
  refine .mapM_map _ fun entry => ?_
  rw [Units.prices]
  simp only [Dict.mapValues_get?]
  cases latest.get? entry.1 with
  | none => exact .error rfl
  | some price => exact .ok (congrArg (Prod.mk entry.1) (units.worth entry.1 entry.2 price))

end Prices

section Days
variable [UnicodeDatabase]

/-- The replay has come as far in the one unit as in the other. -/
structure Units.SameState (units : Units ctx) (state state' : ReplayState) : Prop where
  remaining : List.Forall₂ units.SameTransaction state.remaining state'.remaining
  account : state'.account = units.account state.account
  latestPrices : state'.latestPrices = units.prices state.latestPrices
  pending : state'.pendingExternalFlow = units.money * state.pendingExternalFlow
  points : state'.points = state.points.map units.point

omit [UnicodeDatabase] in
structure Units.SameReplay (units : Units ctx) (replayed replayed' : Account × ℚ × List Transaction) : Prop where
  account : replayed'.1 = units.account replayed.1
  pending : replayed'.2.1 = units.money * replayed.2.1
  remaining : List.Forall₂ units.SameTransaction replayed.2.2 replayed'.2.2

theorem replayThrough_rescaled (day : Date) {transactions transactions' : List Transaction}
    (same : List.Forall₂ units.SameTransaction transactions transactions') (account : Account) (pending : ℚ) :
    Parallel Eq units.SameReplay (replayThrough ctx day account pending transactions)
      (replayThrough ctx day (units.account account) (units.money * pending) transactions') := by
  induction same generalizing account pending with
  | nil => exact .ok ⟨rfl, rfl, .nil⟩
  | @cons t t' rest rest' head tail ih =>
    rw [replayThrough, replayThrough, head.date]
    refine .after _ fun date => ?_
    split
    · exact .ok ⟨rfl, rfl, .cons head tail⟩
    · refine (applyTransaction_rescaled account head).bind fun settled settled' next => ?_
      subst next
      simp only [units.money_scales.add]
      exact ih _ _

theorem visitDate_rescaled (tables : Dict String (Dict Date ℚ)) (day : Date) {state state' : ReplayState}
    (same : units.SameState state state') :
    Parallel Eq units.SameState (visitDate ctx tables state day) (visitDate ctx (units.tables tables) state' day) := by
  have money := units.money_scales
  unfold visitDate
  rw [same.account, same.latestPrices, same.pending, observePrices_rescaled]
  refine (replayThrough_rescaled day same.remaining state.account state.pendingExternalFlow).bind
    fun replayed replayed' next => ?_
  obtain ⟨account, pending, remaining⟩ := replayed
  obtain ⟨account', pending', remaining'⟩ := replayed'
  obtain ⟨rfl, rfl, left⟩ := next
  have unpriced : ((activePositions (units.account account).positions).any fun entry =>
      ((units.prices (observePrices tables day state.latestPrices)).get? entry.1).isNone) =
        (activePositions account.positions).any fun entry =>
          ((observePrices tables day state.latestPrices).get? entry.1).isNone := by
    simp only [Units.account, activePositions_rescaled, List.any_map, prices_isNone, Function.comp_def]
  have skipped : units.SameState
      ⟨remaining, account, observePrices tables day state.latestPrices, pending, state.points⟩
      ⟨remaining', units.account account, units.prices (observePrices tables day state.latestPrices),
        units.money * pending, state'.points⟩ := ⟨left, rfl, rfl, rfl, same.points⟩
  simp only [unpriced]
  split
  · exact .ok skipped
  · refine (assetValues_rescaled account.positions _).bind fun values values' scaled => ?_
    subst scaled
    have total : ctx.add (units.account account).cashBalance (ctx.sum ((values.map units.holding).map Prod.snd)) =
        units.money * ctx.add account.cashBalance (ctx.sum (values.map Prod.snd)) := by
      rw [← money.add, ← money.sum, List.map_map, List.map_map]
      rfl
    simp only [total, money.nonpos]
    split
    · exact .ok skipped
    · refine .ok ⟨left, rfl, rfl, (mul_zero _).symm, ?_⟩
      simp only [same.points, List.map_append, List.map_cons, List.map_nil]
      rfl

end Days

section Summaries
variable {F : Type} [FloatArithmetic F]

omit [FloatArithmetic F] in
theorem divide_rescaled (x y : ℚ) : divide ctx (units.money * x) (units.money * y) = divide ctx x y := by
  simp only [divide, units.money_scales.eq_zero, units.money_scales.div]

/-- A return has no unit. -/
theorem periodReturn_rescaled (previous current : PortfolioValuePoint) :
    periodReturn (F := F) ctx (units.point previous) (units.point current) = periodReturn ctx previous current := by
  have money := units.money_scales
  simp only [periodReturn, Units.point, money.nonpos, money.sub, divide_rescaled]

theorem cashFlowAdjustedReturns_rescaled (points : List PortfolioValuePoint) :
    cashFlowAdjustedReturns (F := F) ctx (points.map units.point) = cashFlowAdjustedReturns ctx points := by
  rw [cashFlowAdjustedReturns, ← List.map_tail, List.zip_map, List.mapM_map, cashFlowAdjustedReturns]
  exact congrArg (List.mapM · _) (funext fun pair => periodReturn_rescaled pair.1 pair.2)

theorem summarize_rescaled {state state' : ReplayState} (same : units.SameState state state') :
    Parallel Eq (fun valuation valuation' => valuation' = units.valuation valuation)
      (summarize (F := F) ctx state) (summarize ctx state') := by
  unfold summarize
  simp only [same.points, same.account, same.latestPrices, Units.account, activeSymbols_rescaled, prices_isNone,
    List.getLast?_map, cashFlowAdjustedReturns_rescaled]
  cases state.points.getLast? with
  | none => exact .error rfl
  | some latest =>
    simp only [Option.map_some]
    split
    · exact .error rfl
    · refine (assetValues_rescaled state.account.positions state.latestPrices).bind fun values values' scaled => ?_
      subst scaled
      rw [StableSort.sortOn_map]
      refine (Parallel.mapM_map (h := units.assetWeight) _ fun holding => ?_).bind fun weights weights' scaled => ?_
      · simp only [Units.holding, Units.point, divide_rescaled]
        refine .after _ fun weight => .ok ?_
        rfl
      · subst scaled
        refine .after _ fun returns => .ok ?_
        rfl

/-- The measurements are ratios, apart from the amounts of money. -/
theorem measure_rescaled (methodology : AnalyticsMethodology) (valuation : PortfolioValuation F) (stale : Bool) :
    Parallel Eq (fun analytics analytics' => analytics' = units.analytics analytics)
      (PortfolioAnalyticsService.measure ctx methodology valuation stale)
      (PortfolioAnalyticsService.measure ctx methodology (units.valuation valuation) stale) := by
  unfold PortfolioAnalyticsService.measure
  simp only [Units.valuation, List.getLast?_map]
  cases valuation.points.getLast? with
  | none => exact .error rfl
  | some latest =>
    refine .after (.ok latest.date) fun asOf => ?_
    refine .after _ fun volatility => ?_
    refine .after _ fun sharpe => .ok ?_
    rfl

variable [UnicodeDatabase]

/-- A valuation in other units is the valuation with its amounts in the other unit of money. -/
theorem buildPortfolioValuation_rescaled {transactions transactions' : List Transaction}
    {bars bars' : Dict String (List PriceBar)} (ledger : List.Forall₂ units.SameTransaction transactions transactions')
    (market : bars.Related (List.Forall₂ units.SameBar) bars') (startDate endDate : Date) :
    Parallel Eq (fun valuation valuation' => valuation' = units.valuation valuation)
      (buildPortfolioValuation (F := F) ctx transactions bars startDate endDate)
      (buildPortfolioValuation ctx transactions' bars' startDate endDate) := by
  refine .after _ fun _ => ?_
  refine (requiredPriceSymbols_rescaled startDate endDate ledger).bind fun symbols _ equal => ?_
  subst equal
  split
  · exact .error rfl
  refine (validatedPrices_rescaled symbols startDate endDate market).bind fun tables tables' scaled => ?_
  subst scaled
  simp only [calendar_rescaled]
  split
  · exact .error rfl
  refine (orderedTransactions_rescaled endDate ledger).bind fun ordered ordered' sorted => ?_
  have start : units.SameState { remaining := ordered } { remaining := ordered' } :=
    ⟨sorted, congrArg (Account.mk .empty) (mul_zero _).symm, rfl, (mul_zero _).symm, rfl⟩
  have visits : Parallel Eq units.SameState
      ((sortedSet (tables.entries.flatMap fun entry => entry.2.keys)).foldlM (visitDate ctx tables)
        { remaining := ordered })
      ((sortedSet (tables.entries.flatMap fun entry => entry.2.keys)).foldlM (visitDate ctx (units.tables tables))
        { remaining := ordered' }) :=
    .foldlM (fun state state' day same => visitDate_rescaled tables day same) start
  exact visits.bind fun _ _ final => summarize_rescaled final

/-- What is held in other units is the same number of the other units. -/
theorem derivePositions_rescaled {transactions transactions' : List Transaction}
    (ledger : List.Forall₂ units.SameTransaction transactions transactions') :
    Parallel Eq (fun positions positions' => positions' = positions.map units.position)
      (derivePositions ctx transactions) (derivePositions ctx transactions') := by
  have checked : Parallel Eq Eq (transactions.forM validateTransaction) (transactions'.forM validateTransaction) :=
    .forM ledger fun t t' head => by rw [head.validate]; exact .refl (fun _ => rfl) _
  have sorted : Parallel Eq (List.Forall₂ units.SameTransaction) (Checked.sortOnM ledgerOrder transactions)
      (Checked.sortOnM ledgerOrder transactions') :=
    .sortOnM (fun _ => rfl) ledger fun _ _ same => same.order.symm
  refine checked.bind fun _ _ _ => sorted.bind fun ordered ordered' same => ?_
  have replayed : Parallel Eq (fun positions positions' => positions' = units.quantities positions)
      (ordered.foldlM (changePosition ctx .invalidTransaction) Dict.empty)
      (ordered'.foldlM (changePosition ctx .invalidTransaction) Dict.empty) := by
    refine .foldlM_forall₂ same (fun positions positions' t t' related head => ?_) rfl
    subst related
    exact changePosition_rescaled _ positions head
  refine replayed.bind fun quantities _ scaled => .ok ?_
  subst scaled
  rw [Units.quantities, Dict.mapValues_entries, StableSort.sortOn_map, List.filter_map, List.map_map, List.map_map]
  have kept : ∀ entry : String × ℚ, decide (units.shares entry.1 * entry.2 ≠ 0) = decide (entry.2 ≠ 0) := fun entry =>
    decide_eq_decide.mpr (not_congr ((units.shares_scales entry.1).eq_zero entry.2))
  simp only [Function.comp_def, kept]
  rfl

end Summaries
end LedgerLens

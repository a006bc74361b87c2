import LedgerLens.LatestSnapshot
import LedgerLens.Refusals
import LedgerLens.ReplayAgreement

namespace LedgerLens
open Decimal (Context)
open Checked (OnlyRaises)

/-- How the messages begin that `build_portfolio_valuation` keeps for what should not happen. -/
def internalRefusals : List String := [
  "no market dates are available in the requested range",
  "no usable price is available for active symbol ",
  "portfolio value must remain positive before calculating returns"]

/-- One of these messages, a price looked up in vain, or a division by zero. -/
def Error.IsInternal : Error → Prop
  | .keyError _ | .divisionByZero => True
  | .invalidPortfolioValuation message => ∃ label ∈ internalRefusals, ∃ rest, message = label ++ rest
  | _ => False

def Error.IsRegular (e : Error) : Prop := ¬ e.IsInternal

theorem isRegular_append {label : String} (long : 12 ≤ label.toByteArray.data.toList.length)
    (other : ∀ internal ∈ internalRefusals, 12 ≤ internal.toByteArray.data.toList.length ∧
      Text.leadingBytes 12 label ≠ Text.leadingBytes 12 internal) (rest : String) :
    Error.IsRegular (.invalidPortfolioValuation (label ++ rest)) := by
  rintro ⟨internal, listed, rest', same⟩
  obtain ⟨long', different⟩ := other internal listed
  exact Text.append_ne_append long long' different rest rest' same

/-- How the other messages begin. -/
def regularRefusals : List String := [
  "start_date must not be after end_date",
  "portfolio has no security holdings in the requested range",
  "no price bars fall within the requested range for ",
  "SELL exceeds available position for ",
  "WITHDRAWAL exceeds the available cash balance",
  "transaction fees exceed the available cash balance",
  "portfolio has no positive valuatable balance in the requested range",
  "cash-flow-adjusted portfolio value must remain positive"]

theorem isRegular_refusal {label : String} (listed : label ∈ regularRefusals) (rest : String) :
    Error.IsRegular (.invalidPortfolioValuation (label ++ rest)) := by
  have others : ∀ label ∈ regularRefusals, 12 ≤ label.toByteArray.data.toList.length ∧
      ∀ internal ∈ internalRefusals, 12 ≤ internal.toByteArray.data.toList.length ∧
        Text.leadingBytes 12 label ≠ Text.leadingBytes 12 internal := by decide +kernel
  exact isRegular_append (others label listed).1 (others label listed).2 rest

theorem isRegular_message {message : String} (listed : message ∈ regularRefusals) :
    Error.IsRegular (.invalidPortfolioValuation message) := by
  have whole := isRegular_refusal listed ""
  rwa [String.append_empty] at whole

theorem isRegular_replayErrors : OfReplayErrors Error.IsRegular where
  assertionError := id
  refusal message listed := isRegular_message (by revert message; decide)

theorem applyPositionChange_isRegular (ctx : Context) (positions : Dict String ℚ) (t : Transaction) :
    OnlyRaises Error.IsRegular (applyPositionChange ctx positions t) :=
  applyPositionChange_onlyRaises id (isRegular_refusal (by simp [regularRefusals])) ctx positions t

theorem transactionDate_isRegular (t : Transaction) : OnlyRaises Error.IsRegular (transactionDate t) :=
  transactionDate_onlyRaises id t

theorem validateDateRange_isRegular (startDate endDate : Date) :
    OnlyRaises Error.IsRegular (validateDateRange startDate endDate) :=
  .guard (isRegular_message (by simp [regularRefusals])) fun _ => .ok _

section Summary
variable {F : Type} [FloatArithmetic F]

theorem divide_isRegular {x y : ℚ} (positive : 0 < y) : OnlyRaises Error.IsRegular (divide .exact x y) := by
  rw [divide_eq_ok.mpr ⟨positive.ne', rfl⟩]
  exact .ok _

theorem periodReturn_isRegular {previous : PortfolioValuePoint} (positive : 0 < previous.totalValue)
    (current : PortfolioValuePoint) : OnlyRaises Error.IsRegular (periodReturn (F := F) .exact previous current) := by
  rw [periodReturn, if_neg (not_le.mpr positive)]
  refine .guard (isRegular_message (by simp [regularRefusals])) fun _ => ?_
  exact (divide_isRegular positive).bind fun _ _ => .ok _

/-- With positive values behind it and a price for each position, nothing goes wrong after the loop. -/
theorem summarize_isRegular {final : ReplayState} (positive : ∀ point ∈ final.points, 0 < point.totalValue)
    (priced : ∀ entry ∈ activePositions final.account.positions, (final.latestPrices.get? entry.1).isSome) :
    OnlyRaises Error.IsRegular (summarize (F := F) .exact final) := by
  unfold summarize
  split
  · exact .error (isRegular_message (by simp [regularRefusals]))
  · next latest last =>
    have worth := positive latest (List.mem_of_getLast? last)
    simp only
    split
    · next symbol rest missing =>
      have listed : symbol ∈ sortedSet (((activePositions final.account.positions).map Prod.fst).filter
          fun symbol => (final.latestPrices.get? symbol).isNone) := by
        rw [missing]
        exact List.mem_cons_self
      rw [mem_sortedSet, List.mem_filter] at listed
      obtain ⟨held, unpriced⟩ := listed
      obtain ⟨entry, active, rfl⟩ := List.mem_map.mp held
      have price := priced entry active
      simp_all
    · rw [assetValues_eq_ok priced, Checked.ok_bind]
      refine .bind (.mapM fun _ _ => (divide_isRegular worth).bind fun _ _ => .ok _) fun _ _ => ?_
      refine .bind (.mapM fun pair member => ?_) fun _ _ => .ok _
      exact periodReturn_isRegular (positive pair.1 (List.of_mem_zip member).1) pair.2

end Summary

section Builds
variable [UnicodeDatabase]

theorem orderedTransactions_isRegular (transactions : List Transaction) (endDate : Date) :
    OnlyRaises Error.IsRegular (orderedTransactions transactions endDate) :=
  orderedTransactions_onlyRaises
    (fun t _ => ⟨validateTransaction_onlyRaises (fun _ => id) t, fun _ => transactionDate_isRegular t⟩) endDate

theorem requiredPriceSymbols_isRegular (ctx : Context) (transactions : List Transaction) (startDate endDate : Date) :
    OnlyRaises Error.IsRegular (requiredPriceSymbols ctx transactions startDate endDate) := by
  refine (validateDateRange_isRegular _ _).bind fun _ _ => ?_
  refine (orderedTransactions_isRegular _ _).bind fun ordered _ => ?_
  refine .bind (.foldlM (fun positions t _ => ?_) _) fun _ _ => ?_
  · refine (transactionDate_isRegular t).bind fun _ _ => ?_
    split
    · exact .ok _
    · exact applyPositionChange_isRegular ctx positions t
  · exact .bind (.mapM fun t _ => transactionDate_isRegular t) fun _ _ => .ok _

/-- A pass of the loop looks up the prices of the positions only after it has found them all. -/
theorem visitDate_isRegular (prices : Dict String (Dict Date ℚ)) {state : ReplayState}
    (checked : ∀ t ∈ state.remaining, t.Valid ∧ t.occurredAt.astimezoneUtc.isSome) (day : Date) :
    OnlyRaises Error.IsRegular (visitDate .exact prices state day) := by
  have replay := replayThrough_onlyRaises isRegular_replayErrors (applyPositionChange_isRegular .exact) day checked
    state.account state.pendingExternalFlow
  refine replay.bind fun _ _ => ?_
  simp only
  split
  · exact .ok _
  · next all =>
    rw [assetValues_eq_ok (priced_of_not_any all), Checked.ok_bind]
    split
    · exact .ok _
    · exact .ok _

section Loop
variable {transactions : List Transaction} {priceBarsBySymbol : Dict String (List PriceBar)} {startDate endDate : Date}
  {symbols : List String}

theorem ValuedThrough.positive {seen : List Date} {state : ReplayState}
    (valued : ValuedThrough transactions priceBarsBySymbol startDate endDate symbols seen state) :
    ∀ point ∈ state.points, 0 < point.totalValue := by
  intro point listed
  obtain ⟨k, bound, rfl⟩ := List.getElem_of_mem listed
  obtain ⟨account, _, value, _⟩ := valued.flows k bound
  unfold valueOn at value
  simp only at value
  split at value
  · next valuable => exact Option.some.inj value ▸ valuable.2
  · cases value

/-- At the end of the calendar each required symbol has had a bar. -/
theorem lastPrice_isSome (observed : ∀ symbol ∈ symbols, rangeBars priceBarsBySymbol startDate endDate symbol ≠ [])
    {last : Date} (ends : (marketCalendar priceBarsBySymbol startDate endDate symbols).getLast? = some last)
    {symbol : String} (required : symbol ∈ symbols) :
    (lastPrice priceBarsBySymbol startDate last symbol).isSome := by
  obtain ⟨bar, rest, bars⟩ := List.exists_cons_of_ne_nil (observed symbol required)
  have member : bar ∈ rangeBars priceBarsBySymbol startDate endDate symbol := bars ▸ List.mem_cons_self
  have visited : bar.date ∈ marketCalendar priceBarsBySymbol startDate endDate symbols :=
    mem_marketCalendar.mpr ⟨symbol, required, bar, member, rfl⟩
  have reached : bar.date ≤ last := by
    cases Option.some.inj (ends.symm.trans (List.getLast?_eq_some_getLast (List.ne_nil_of_mem visited)))
    exact ((marketCalendar_ascending priceBarsBySymbol startDate endDate symbols).imp le_of_lt).rel_getLast visited
  rw [lastPrice_eq_rangeBars (marketCalendar_within (List.mem_of_getLast? ends)).2, Option.isSome_map]
  exact AsOf.latest_isSome.mpr ⟨bar, member, reached⟩

end Loop

/-- What holds of the account and the points wherever the loop of a valuation stands. -/
structure SoundState (symbols : List String) (state : ReplayState) : Prop where
  covered : ∀ symbol, state.account.positions.getD symbol 0 ≠ 0 → symbol ∈ symbols
  cash_nonneg : 0 ≤ state.account.cashBalance
  nonneg : PositionsNonneg state.account.positions
  positive : ∀ point ∈ state.points, 0 < point.totalValue

section Valuations
variable {F : Type} [FloatArithmetic F] (transactions : List Transaction)
  (priceBarsBySymbol : Dict String (List PriceBar)) (startDate endDate : Date)

theorem buildPortfolioValuation_isRegular : OnlyRaises Error.IsRegular
    (buildPortfolioValuation (F := F) .exact transactions priceBarsBySymbol startDate endDate) := by
  refine (validateDateRange_isRegular _ _).bind fun _ _ => ?_
  refine (requiredPriceSymbols_isRegular .exact _ _ _).bind fun symbols required => ?_
  refine .guard (isRegular_message (by simp [regularRefusals])) fun needed => ?_
  refine (validatedPrices_onlyRaises (fun _ => id) (isRegular_refusal (by simp [regularRefusals])) _ _ _ _).bind
    fun prices validated => ?_
  have requires := requiredPriceSymbols_requires required
  have known := validatedPrices_pricesOf validated
  rw [known.calendar]
  -- Some symbol is required, and it has a bar in the range.
  obtain ⟨symbol, _, listed⟩ := List.exists_cons_of_ne_nil needed
  have member : symbol ∈ symbols := listed ▸ List.mem_cons_self
  obtain ⟨bar, _, bars⟩ := List.exists_cons_of_ne_nil (known.observed symbol member)
  have visited : bar.date ∈ marketCalendar priceBarsBySymbol startDate endDate symbols :=
    mem_marketCalendar.mpr ⟨symbol, member, bar, bars ▸ List.mem_cons_self, rfl⟩
  have nonempty := List.ne_nil_of_mem visited
  rw [if_neg nonempty]
  refine (orderedTransactions_isRegular _ _).bind fun ordered sorted => ?_
  obtain ⟨checked, rfl⟩ := orderedTransactions_eq_ok.mp sorted
  refine .bind (.foldlM_reaching (ValuedThrough transactions priceBarsBySymbol startDate endDate symbols) (.start ..)
    fun seen day later state calendar valued => ?_) fun final looped => ?_
  · refine ⟨visitDate_isRegular prices (fun t pending => ?_) day, fun next step =>
      valued.visit requires known calendar step⟩
    rw [valued.remaining] at pending
    exact checked t (List.mem_of_mem_filter (StableSort.mem_sortOn.mp ((List.dropWhile_sublist _).subset pending)))
  · have valued : ValuedThrough transactions priceBarsBySymbol startDate endDate symbols _ final :=
      .of_run requires known (List.append_nil _).symm looped
    have ends := List.getLast?_eq_some_getLast nonempty
    obtain ⟨after, before⟩ := marketCalendar_within (List.mem_of_getLast? ends)
    obtain ⟨account, samePrices⟩ := valued.ends requires ends
    refine summarize_isRegular valued.positive fun entry active => ?_
    have held := requires.active after before account (active_iff.mp (List.mem_map_of_mem active))
    rw [samePrices entry active]
    exact lastPrice_isSome known.observed ends held

variable {transactions priceBarsBySymbol startDate endDate}

theorem ReplayedTo.soundState {day : Date} {state : ReplayState}
    (reached : ReplayedTo .exact transactions priceBarsBySymbol startDate endDate day state) :
    ∃ symbols, requiredPriceSymbols .exact transactions startDate endDate = .ok symbols ∧
      SoundState symbols state := by
  obtain ⟨symbols, prices, ordered, seen, later, required, validated, sorted, calendar, run⟩ := reached
  have requires := requiredPriceSymbols_requires required
  have known := validatedPrices_pricesOf validated
  obtain ⟨_, rfl⟩ := orderedTransactions_eq_ok.mp sorted
  rw [known.calendar] at calendar
  have whole : marketCalendar priceBarsBySymbol startDate endDate symbols = (seen ++ [day]) ++ later := by
    rw [calendar, List.append_assoc, List.singleton_append]
  have within : ∀ other ∈ seen ++ [day], startDate ≤ other ∧ other ≤ endDate := fun other listed =>
    marketCalendar_within (whole ▸ List.mem_append_left later listed)
  have valued := ValuedThrough.of_run requires known whole run
  have account := valued.accountOn_last (fun other listed => (within other listed).2) List.getLast?_concat
  obtain ⟨after, before⟩ := within day (by simp)
  have replayed := replay_replayed account
  exact ⟨symbols, required, fun symbol => requires.active after before account, replayed.cash_nonneg, replayed.nonneg,
    valued.positive⟩

/-- A valuation never takes one of its internal error branches. Wherever it stands in its loop, each symbol with
a position is among those it has prices for, cash and positions are not negative, and every value that a later
division can have as its denominator is positive. -/
theorem unreachable_branches (transactions : List Transaction) (priceBarsBySymbol : Dict String (List PriceBar))
    (startDate endDate : Date) :
    (∀ e, buildPortfolioValuation (F := F) .exact transactions priceBarsBySymbol startDate endDate = .error e →
      ¬ e.IsInternal) ∧
    (∀ applied account flow, replay .exact applied = .ok (account, flow) →
      0 ≤ account.cashBalance ∧ PositionsNonneg account.positions) ∧
    (∀ day state, ReplayedTo .exact transactions priceBarsBySymbol startDate endDate day state →
      ∃ symbols, requiredPriceSymbols .exact transactions startDate endDate = .ok symbols ∧
        SoundState symbols state) ∧
    ∀ valuation : PortfolioValuation F,
      buildPortfolioValuation .exact transactions priceBarsBySymbol startDate endDate = .ok valuation →
        0 < valuation.portfolioValue ∧ ∀ point ∈ valuation.points, 0 < point.totalValue := by
  refine ⟨buildPortfolioValuation_isRegular _ _ _ _, fun applied account flow run => ?_,
    fun day state reached => reached.soundState, fun valuation built => ?_⟩
  · have replayed := replay_replayed run
    exact ⟨replayed.cash_nonneg, replayed.nonneg⟩
  · obtain ⟨symbols, final, _, _, _, valued, summarized⟩ := buildPortfolioValuation_eq_ok built
    obtain ⟨latest, summarizes⟩ := summarize_eq_ok summarized
    rw [summarizes.portfolioValue, summarizes.points]
    exact ⟨valued.positive latest (List.mem_of_getLast? summarizes.latest_eq), valued.positive⟩

end Valuations
end Builds

section Samples

attribute [local instance] Text.asciiDatabase FloatArithmetic.rational

theorem sample_sound_state : ∃ day state symbols,
    ReplayedTo .exact sampleLedger sampleBars (sampleDay 0) (sampleDay 7) day state ∧
    requiredPriceSymbols .exact sampleLedger (sampleDay 0) (sampleDay 7) = .ok symbols ∧
    SoundState symbols state := by
  obtain ⟨valuation, built⟩ := sample_built
  obtain ⟨day, state, reached⟩ := exists_replayedTo built
  obtain ⟨symbols, required, sound⟩ :=
    (unreachable_branches (F := ℚ) sampleLedger sampleBars (sampleDay 0) (sampleDay 7)).2.2.1 day state reached
  exact ⟨day, state, symbols, reached, required, sound⟩

end Samples
end LedgerLens

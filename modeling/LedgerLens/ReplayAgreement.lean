import LedgerLens.ValuationErrors

namespace LedgerLens
open Decimal (Context)
open Checked (OnlyRaises)

/-- Not the exception for a SELL above the position. -/
def NotExceeding (e : Error) : Prop :=
  ∀ symbol : String, e ≠ .invalidPortfolioValuation s!"SELL exceeds available position for {symbol}"

theorem notExceeding_append {label : String} (long : 5 ≤ label.toByteArray.data.toList.length)
    (other : Text.leadingBytes 5 label ≠ Text.leadingBytes 5 "SELL exceeds available position for ") (rest : String) :
    NotExceeding (.invalidPortfolioValuation (label ++ rest)) :=
  fun symbol => refusal_ne long (by decide) other rest symbol

theorem notExceeding_errors : OfValuationErrors NotExceeding where
  keyError _ _ same := nomatch same
  divisionByZero _ same := nomatch same
  assertionError _ same := nomatch same
  refusal := by
    have others : ∀ label ∈ valuationRefusals, 5 ≤ label.toByteArray.data.toList.length ∧
        Text.leadingBytes 5 label ≠ Text.leadingBytes 5 "SELL exceeds available position for " := by decide +kernel
    exact fun label listed => notExceeding_append (others label listed).1 (others label listed).2

/-- A position change that goes through does so whichever exception it was to raise. -/
theorem changePosition_ok_iff {ctx : Context} (exceeds exceeds' : String → Error) {positions next : Dict String ℚ}
    {t : Transaction} :
    changePosition ctx exceeds positions t = .ok next ↔ changePosition ctx exceeds' positions t = .ok next := by
  unfold changePosition
  split
  · rfl
  · split
    · simp only
      split
      · rfl
      · rw [Checked.guard_eq_ok, Checked.guard_eq_ok]
    · rfl

theorem changePosition_foldlM_ok_iff {ctx : Context} (exceeds exceeds' : String → Error)
    {positions final : Dict String ℚ} {transactions : List Transaction} :
    transactions.foldlM (changePosition ctx exceeds) positions = .ok final ↔
      transactions.foldlM (changePosition ctx exceeds') positions = .ok final := by
  induction transactions generalizing positions with
  | nil => rfl
  | cons t rest ih => simp only [Checked.foldlM_cons_eq_ok, changePosition_ok_iff exceeds exceeds', ih]

/-- The transactions can all be applied to the positions. -/
def Replayable (ctx : Context) (positions : Dict String ℚ) (transactions : List Transaction) : Prop :=
  ∃ final, transactions.foldlM (applyPositionChange ctx) positions = .ok final

theorem Replayable.append {ctx : Context} {positions : Dict String ℚ} {earlier later : List Transaction}
    (replayable : Replayable ctx positions (earlier ++ later)) :
    ∃ middle, earlier.foldlM (applyPositionChange ctx) positions = .ok middle ∧ Replayable ctx middle later := by
  obtain ⟨final, run⟩ := replayable
  obtain ⟨middle, first, second⟩ := Checked.foldlM_append_eq_ok.mp run
  exact ⟨middle, first, final, second⟩

/-- The opening positions are those of what is dated before the range. -/
theorem openingPositions_eq_foldlM {ctx : Context} {startDate : Date} {ordered : List Transaction}
    (convertible : ∀ t ∈ ordered, t.occurredAt.astimezoneUtc.isSome) :
    openingPositions ctx startDate ordered =
      (ordered.filter fun t => t.utcDate < startDate).foldlM (applyPositionChange ctx) .empty := by
  unfold openingPositions
  generalize Dict.empty = positions
  induction ordered generalizing positions with
  | nil => rfl
  | cons t rest ih =>
    obtain ⟨head, tail⟩ := List.forall_mem_cons.mp convertible
    rw [List.foldlM_cons, transactionDate_eq_ok.mpr ⟨head, rfl⟩, Checked.ok_bind]
    by_cases before : t.utcDate < startDate
    · rw [if_neg (not_le.mpr before), List.filter_cons_of_pos (by simpa using before), List.foldlM_cons]
      exact congrArg _ (funext fun next => ih tail next)
    · rw [if_pos (not_lt.mp before), List.filter_cons_of_neg (by simpa using before)]
      exact ih tail positions

section Replays
variable [UnicodeDatabase]

/-- What `_apply_transaction` does to the positions. -/
theorem applyTransaction_positions {ctx : Context} {account next : Account} {t : Transaction} {flow : ℚ}
    (run : applyTransaction ctx account t = .ok (next, flow)) :
    applyPositionChange ctx account.positions t = .ok next.positions := by
  obtain ⟨_, checked, run⟩ := Checked.bind_eq_ok.mp run
  obtain ⟨⟨settled, external⟩, settles, run⟩ := Checked.bind_eq_ok.mp run
  obtain ⟨_, result⟩ := Checked.guard_eq_ok.mp run
  cases result
  have valid := validateTransaction_eq_ok.mp checked
  cases kind : t.transactionType with
  | deposit =>
    obtain ⟨cashAmount, payload⟩ := valid.transfer (by rw [kind]; decide)
    simp only [settleTransaction, kind, payload.cashAmount_eq] at settles
    cases settles
    simp [applyPositionChange, changePosition, kind]
  | withdrawal =>
    obtain ⟨cashAmount, payload⟩ := valid.transfer (by rw [kind]; decide)
    simp only [settleTransaction, kind, payload.cashAmount_eq] at settles
    obtain ⟨_, settles⟩ := Checked.guard_eq_ok.mp settles
    cases settles
    simp [applyPositionChange, changePosition, kind]
  | buy | sell =>
    obtain ⟨symbol, quantity, unitPrice, payload⟩ := valid.trade (by rw [kind]; rfl)
    simp only [settleTransaction, kind, payload.quantity_eq, payload.unitPrice_eq] at settles
    obtain ⟨positions, changed, settles⟩ := Checked.bind_eq_ok.mp settles
    cases settles
    exact changed

theorem applyNext_foldlM_positions {ctx : Context} {transactions : List Transaction} {state final : Account × ℚ}
    (run : transactions.foldlM (applyNext ctx) state = .ok final) :
    transactions.foldlM (applyPositionChange ctx) state.1.positions = .ok final.1.positions := by
  induction transactions generalizing state with
  | nil =>
    cases Checked.pure_eq_ok.mp run
    rfl
  | cons t rest ih =>
    obtain ⟨⟨next, flow⟩, step, run⟩ := Checked.foldlM_cons_eq_ok.mp run
    obtain ⟨_, applied, _⟩ := applyNext_eq_ok.mp step
    exact Checked.foldlM_cons_eq_ok.mpr ⟨_, applyTransaction_positions applied, ih run⟩

/-- The inner loop is never refused a position that the ledger can be replayed to. -/
theorem replayThrough_notExceeding {ctx : Context} (day : Date) {remaining : List Transaction}
    (checked : ∀ t ∈ remaining, t.Valid ∧ t.occurredAt.astimezoneUtc.isSome) {account : Account}
    (replayable : Replayable ctx account.positions remaining) (pending : ℚ) :
    OnlyRaises NotExceeding (replayThrough ctx day account pending remaining) := by
  induction remaining generalizing account pending with
  | nil => exact .ok _
  | cons t rest ih =>
    obtain ⟨⟨valid, convertible⟩, tail⟩ := List.forall_mem_cons.mp checked
    obtain ⟨final, run⟩ := replayable
    obtain ⟨positions, changed, later⟩ := Checked.foldlM_cons_eq_ok.mp run
    rw [replayThrough, transactionDate_eq_ok.mpr ⟨convertible, rfl⟩, Checked.ok_bind]
    split
    · exact .ok _
    · have changes : OnlyRaises NotExceeding (applyPositionChange ctx account.positions t) := changed ▸ .ok _
      refine (applyTransaction_onlyRaises notExceeding_errors.replay valid changes).bind fun replayed applied => ?_
      obtain ⟨next, flow⟩ := replayed
      have same : positions = next.positions :=
        Except.ok.inj (changed.symm.trans (applyTransaction_positions applied))
      exact ih tail ⟨final, same ▸ later⟩ _

/-- What the inner loop leaves behind. -/
theorem replayThrough_positions {ctx : Context} {day : Date} {remaining rest : List Transaction}
    (convertible : ∀ t ∈ remaining, t.occurredAt.astimezoneUtc.isSome) {account next : Account} {pending flow : ℚ}
    (run : replayThrough ctx day account pending remaining = .ok (next, flow, rest)) :
    (remaining.takeWhile fun t => t.utcDate ≤ day).foldlM (applyPositionChange ctx) account.positions =
        .ok next.positions ∧ rest = remaining.dropWhile fun t => t.utcDate ≤ day := by
  rw [replayThrough_eq ctx day convertible] at run
  obtain ⟨⟨settled, total⟩, folded, result⟩ := Checked.bind_eq_ok.mp run
  cases Checked.pure_eq_ok.mp result
  exact ⟨applyNext_foldlM_positions folded, rfl⟩

/-- A pass of the loop replays the day and does nothing else to the positions. -/
theorem visitDate_replayed {ctx : Context} {prices : Dict String (Dict Date ℚ)} {state next : ReplayState} {day : Date}
    (run : visitDate ctx prices state day = .ok next) :
    ∃ flow, replayThrough ctx day state.account state.pendingExternalFlow state.remaining =
      .ok (next.account, flow, next.remaining) := by
  obtain ⟨⟨account, pending, remaining⟩, replayed, run⟩ := Checked.bind_eq_ok.mp run
  refine ⟨pending, ?_⟩
  simp only at run
  split at run
  · cases Checked.pure_eq_ok.mp run
    exact replayed
  · obtain ⟨values, _, run⟩ := Checked.bind_eq_ok.mp run
    split at run
    · cases Checked.pure_eq_ok.mp run
      exact replayed
    · cases Checked.pure_eq_ok.mp run
      exact replayed

theorem visitDate_notExceeding {ctx : Context} (prices : Dict String (Dict Date ℚ)) {state : ReplayState} (day : Date)
    (checked : ∀ t ∈ state.remaining, t.Valid ∧ t.occurredAt.astimezoneUtc.isSome)
    (replayable : Replayable ctx state.account.positions state.remaining) :
    OnlyRaises NotExceeding (visitDate ctx prices state day) :=
  visitDate_onlyRaises notExceeding_errors prices (replayThrough_notExceeding day checked replayable _)

/-- Where the loop stands once it has visited some days: the positions are those that the part of the
ledger up to the last of them replays to. -/
structure PositionedThrough (ctx : Context) (ordered : List Transaction) (seen : List Date) (state : ReplayState) :
    Prop where
  positions : (ordered.takeWhile (Transaction.reachedBy seen.getLast?)).foldlM (applyPositionChange ctx) .empty =
    .ok state.account.positions
  remaining : state.remaining = ordered.dropWhile (Transaction.reachedBy seen.getLast?)

omit [UnicodeDatabase] in
theorem PositionedThrough.start (ctx : Context) (ordered : List Transaction) :
    PositionedThrough ctx ordered [] { remaining := ordered } := by
  constructor <;> cases ordered <;> rfl

theorem PositionedThrough.visit {ctx : Context} {ordered : List Transaction}
    (convertible : ∀ t ∈ ordered, t.occurredAt.astimezoneUtc.isSome) {seen : List Date} {day : Date}
    (ascending : ∀ earlier ∈ seen, earlier ≤ day) {state next : ReplayState}
    (positioned : PositionedThrough ctx ordered seen state) {prices : Dict String (Dict Date ℚ)}
    (run : visitDate ctx prices state day = .ok next) : PositionedThrough ctx ordered (seen ++ [day]) next := by
  obtain ⟨flow, replayed⟩ := visitDate_replayed run
  have weaker : ∀ t : Transaction, t.reachedBy seen.getLast? → t.reachedBy (some day) := by
    intro t reached
    obtain ⟨earlier, last, early⟩ := (Option.any_eq_true ..).mp reached
    exact decide_eq_true ((of_decide_eq_true early).trans (ascending earlier (List.mem_of_getLast? last)))
  obtain ⟨taken, dropped⟩ := Timeline.takeWhile_append_dropWhile weaker ordered
  obtain ⟨positions, remaining⟩ := replayThrough_positions (fun t member => convertible t
    ((List.dropWhile_sublist _).subset (positioned.remaining ▸ member))) replayed
  constructor
  · rw [List.getLast?_concat, taken]
    refine Checked.foldlM_append_eq_ok.mpr ⟨_, positioned.positions, ?_⟩
    rw [← positioned.remaining]
    exact positions
  · rw [List.getLast?_concat, dropped, remaining, positioned.remaining]
    rfl

omit [UnicodeDatabase] in
/-- After any days, the rest of the ledger can still be replayed. -/
theorem PositionedThrough.replayable {ctx : Context} {ordered : List Transaction}
    (replayable : Replayable ctx .empty ordered) {seen : List Date} {state : ReplayState}
    (positioned : PositionedThrough ctx ordered seen state) :
    Replayable ctx state.account.positions state.remaining := by
  rw [← List.takeWhile_append_dropWhile (p := Transaction.reachedBy seen.getLast?) (l := ordered)] at replayable
  obtain ⟨middle, run, later⟩ := replayable.append
  cases Except.ok.inj (run.symm.trans positioned.positions)
  rw [positioned.remaining]
  exact later

section Agreement
variable (ctx : Context) (transactions : List Transaction) (priceBarsBySymbol : Dict String (List PriceBar))
  (startDate endDate : Date)

/-- The loop of a valuation has visited the market dates up to a day and stands in a state. -/
def ReplayedTo (day : Date) (state : ReplayState) : Prop :=
  ∃ symbols prices ordered seen later, requiredPriceSymbols ctx transactions startDate endDate = .ok symbols ∧
    validatedPrices symbols priceBarsBySymbol startDate endDate = .ok prices ∧
    orderedTransactions transactions endDate = .ok ordered ∧
    sortedSet (prices.entries.flatMap fun entry => entry.2.keys) = seen ++ day :: later ∧
    (seen ++ [day]).foldlM (visitDate ctx prices) { remaining := ordered } = .ok state

variable {ctx transactions priceBarsBySymbol startDate endDate}

/-- A valuation that is returned has come to one of its dates. -/
theorem exists_replayedTo {F : Type} [FloatArithmetic F] {valuation : PortfolioValuation F}
    (built : buildPortfolioValuation ctx transactions priceBarsBySymbol startDate endDate = .ok valuation) :
    ∃ day state, ReplayedTo ctx transactions priceBarsBySymbol startDate endDate day state := by
  obtain ⟨_, _, built⟩ := Checked.bind_eq_ok.mp built
  obtain ⟨symbols, required, built⟩ := Checked.bind_eq_ok.mp built
  obtain ⟨_, built⟩ := Checked.guard_eq_ok.mp built
  obtain ⟨prices, validated, built⟩ := Checked.bind_eq_ok.mp built
  obtain ⟨dated, built⟩ := Checked.guard_eq_ok.mp built
  obtain ⟨ordered, sorted, built⟩ := Checked.bind_eq_ok.mp built
  obtain ⟨final, looped, _⟩ := Checked.bind_eq_ok.mp built
  obtain ⟨day, later, calendar⟩ := List.exists_cons_of_ne_nil dated
  rw [calendar] at looped
  obtain ⟨state, first, _⟩ := Checked.foldlM_cons_eq_ok.mp looped
  exact ⟨day, state, symbols, prices, ordered, [], later, required, validated, sorted, calendar,
    Checked.foldlM_cons_eq_ok.mpr ⟨state, first, rfl⟩⟩

variable {positions : List Position} (accepted : derivePositions ctx transactions = .ok positions)
include accepted

theorem accepted_checked : ∀ t ∈ transactions, t.Valid ∧ t.occurredAt.astimezoneUtc.isSome := by
  obtain ⟨valid, convertible, _⟩ := derivePositions_eq_ok_iff_replayed.mp accepted
  exact fun t member => ⟨valid t member, convertible t member⟩

/-- An accepted ledger is accepted up to any date, and replays to the same positions there. -/
theorem accepted_cut {p : Date → Prop} [DecidablePred p] (downward : ∀ a b, a ≤ b → p b → p a) : ∃ middle,
    (ledgerSorted (transactions.filter fun t => p t.utcDate)).foldlM (applyPositionChange ctx) .empty = .ok middle ∧
      derivePositions ctx (transactions.filter fun t => p t.utcDate) = .ok (openPositions middle) := by
  obtain ⟨valid, convertible, quantities, replayed, _⟩ := derivePositions_eq_ok_iff_replayed.mp accepted
  rw [← List.takeWhile_append_dropWhile (p := fun t => p t.utcDate) (l := ledgerSorted transactions),
    ledgerSorted_takeWhile transactions downward] at replayed
  obtain ⟨middle, start, _⟩ := Checked.foldlM_append_eq_ok.mp replayed
  refine ⟨middle, (changePosition_foldlM_ok_iff ..).mp start, derivePositions_eq_ok_iff_replayed.mpr ?_⟩
  exact ⟨fun t member => valid t (List.mem_of_mem_filter member),
    fun t member => convertible t (List.mem_of_mem_filter member), middle, start, rfl⟩

theorem accepted_until (day : Date) : ∃ middle,
    (ledgerSorted (transactions.filter fun t => t.utcDate ≤ day)).foldlM (applyPositionChange ctx) .empty = .ok middle ∧
      derivePositions ctx (transactions.filter fun t => t.utcDate ≤ day) = .ok (openPositions middle) :=
  accepted_cut (p := fun date => date ≤ day) accepted fun _ _ order before => order.trans before

theorem accepted_ordered (endDate : Date) :
    orderedTransactions transactions endDate = .ok (ledgerSorted (transactions.filter fun t => t.utcDate ≤ endDate)) ∧
      ∀ t ∈ ledgerSorted (transactions.filter fun t => t.utcDate ≤ endDate),
        t.Valid ∧ t.occurredAt.astimezoneUtc.isSome := by
  have checked := accepted_checked accepted
  exact ⟨orderedTransactions_eq_ok.mpr ⟨checked, rfl⟩, fun t member =>
    checked t (List.mem_of_mem_filter (StableSort.mem_sortOn.mp member))⟩

theorem requiredPriceSymbols_returns (range : startDate ≤ endDate) :
    ∃ symbols, requiredPriceSymbols ctx transactions startDate endDate = .ok symbols := by
  obtain ⟨sorted, checked⟩ := accepted_ordered accepted endDate
  have convertible := fun t member => (checked t member).2
  -- What is dated before the range is again a cut of the whole ledger.
  obtain ⟨opening, opened, _⟩ := accepted_cut (p := fun date => date < startDate) accepted
    fun _ _ order before => order.trans_lt before
  have before :
      (ledgerSorted (transactions.filter fun t => t.utcDate ≤ endDate)).filter (fun t => t.utcDate < startDate) =
        ledgerSorted (transactions.filter fun t => t.utcDate < startDate) := by
    rw [ledgerSorted, StableSort.filter_sortOn, ledgerSorted]
    exact congrArg _ (Timeline.filter_filter_of_imp fun t _ early => early.le.trans range)
  have positions : openingPositions ctx startDate (ledgerSorted (transactions.filter fun t => t.utcDate ≤ endDate)) =
      .ok opening := by
    rw [openingPositions_eq_foldlM convertible, before]
    exact opened
  have dates : (ledgerSorted (transactions.filter fun t => t.utcDate ≤ endDate)).mapM transactionDate =
      .ok ((ledgerSorted (transactions.filter fun t => t.utcDate ≤ endDate)).map Transaction.utcDate) :=
    Checked.mapM_eq_ok fun t member => transactionDate_eq_ok.mpr ⟨convertible t member, rfl⟩
  exact ⟨_, Checked.bind_eq_ok.mpr ⟨⟨⟩, Checked.guard_eq_ok.mpr ⟨not_lt.mpr range, rfl⟩,
    Checked.bind_eq_ok.mpr ⟨_, sorted, Checked.bind_eq_ok.mpr ⟨_, positions,
      Checked.bind_eq_ok.mpr ⟨_, dates, rfl⟩⟩⟩⟩⟩

theorem replayable_ordered (endDate : Date) :
    Replayable ctx .empty (ledgerSorted (transactions.filter fun t => t.utcDate ≤ endDate)) := by
  obtain ⟨middle, run, _⟩ := accepted_until accepted endDate
  exact ⟨middle, run⟩

theorem buildPortfolioValuation_notExceeding {F : Type} [FloatArithmetic F] :
    OnlyRaises NotExceeding
      (buildPortfolioValuation (F := F) ctx transactions priceBarsBySymbol startDate endDate) := by
  refine buildPortfolioValuation_onlyRaises notExceeding_errors (fun range => ?_)
    (fun _ _ => validatedPrices_onlyRaises (fun _ _ => nofun) (notExceeding_append (by decide) (by decide +kernel))
      _ _ _ _) fun symbols prices ordered validated sorted => ?_
  · obtain ⟨symbols, required⟩ := requiredPriceSymbols_returns accepted range
    exact required ▸ .ok _
  · obtain ⟨sorted', checked⟩ := accepted_ordered accepted endDate
    cases Except.ok.inj (sorted.symm.trans sorted')
    rw [(validatedPrices_pricesOf validated).calendar]
    refine .foldlM_reaching (PositionedThrough ctx _) (.start ..) fun seen day later state calendar positioned => ?_
    have ascending : (seen ++ day :: later).Pairwise (· < ·) := calendar ▸ marketCalendar_ascending ..
    refine ⟨visitDate_notExceeding prices day ?_ (positioned.replayable (replayable_ordered accepted endDate)),
      fun next step => positioned.visit (fun t member => (checked t member).2) ?_ step⟩
    · rw [positioned.remaining]
      exact fun t member => checked t ((List.dropWhile_sublist _).subset member)
    · exact fun earlier visited => ((List.pairwise_append.mp ascending).2.2 earlier visited day List.mem_cons_self).le

/-- The positions that the loop holds after a market date are those derived from the ledger up to it. -/
theorem replayedTo_positions {day : Date} {state : ReplayState}
    (reached : ReplayedTo ctx transactions priceBarsBySymbol startDate endDate day state) :
    derivePositions ctx (transactions.filter fun t => t.utcDate ≤ day) =
      .ok (openPositions state.account.positions) := by
  obtain ⟨symbols, prices, ordered, seen, later, _, validated, sorted, calendar, run⟩ := reached
  obtain ⟨sorted', checked⟩ := accepted_ordered accepted endDate
  cases Except.ok.inj (sorted.symm.trans sorted')
  rw [(validatedPrices_pricesOf validated).calendar] at calendar
  have within : day ≤ endDate := (marketCalendar_within (calendar ▸ List.mem_append_right seen List.mem_cons_self)).2
  have ascending : (seen ++ day :: later).Pairwise (· < ·) := calendar ▸ marketCalendar_ascending ..
  have sortedSeen : (seen ++ [day]).Pairwise (· < ·) :=
    ascending.sublist (List.Sublist.append_left (by simp) seen)
  have positioned : PositionedThrough ctx (ledgerSorted (transactions.filter fun t => t.utcDate ≤ endDate))
      (seen ++ [day]) state := by
    refine Checked.foldlM_prefix_invariant (PositionedThrough ctx _) (.start ..) run ?_
    intro earlier next rest state' after split positioned step
    rw [split] at sortedSeen
    exact positioned.visit (fun t member => (checked t member).2)
      (fun date visited => ((List.pairwise_append.mp sortedSeen).2.2 date visited next List.mem_cons_self).le) step
  have replayed := positioned.positions
  rw [List.getLast?_concat, ledgerSorted_reachedBy within] at replayed
  obtain ⟨middle, run, derived⟩ := accepted_until accepted day
  cases Except.ok.inj (run.symm.trans replayed)
  exact derived

/-- Accepting a ledger and valuing it agree: it is accepted up to every day, the symbols it needs can be
listed, no valuation of it refuses a SELL, and on every market date a valuation holds the positions that
are derived from the ledger up to that date. -/
theorem replay_agreement {F : Type} [FloatArithmetic F] (range : startDate ≤ endDate) :
    (∀ day, ∃ held, derivePositions ctx (transactions.filter fun t => t.utcDate ≤ day) = .ok held) ∧
    (∃ symbols, requiredPriceSymbols ctx transactions startDate endDate = .ok symbols) ∧
    ∀ priceBarsBySymbol : Dict String (List PriceBar),
      (∀ symbol : String, buildPortfolioValuation (F := F) ctx transactions priceBarsBySymbol startDate endDate ≠
        .error (.invalidPortfolioValuation s!"SELL exceeds available position for {symbol}")) ∧
      ∀ day state, ReplayedTo ctx transactions priceBarsBySymbol startDate endDate day state →
        derivePositions ctx (transactions.filter fun t => t.utcDate ≤ day) =
          .ok (openPositions state.account.positions) := by
  refine ⟨fun day => ?_, requiredPriceSymbols_returns accepted range, fun priceBarsBySymbol =>
    ⟨fun symbol failed => buildPortfolioValuation_notExceeding accepted _ failed symbol rfl,
      fun day state reached => replayedTo_positions accepted reached⟩⟩
  obtain ⟨middle, _, derived⟩ := accepted_until accepted day
  exact ⟨_, derived⟩

end Agreement
end Replays

section Samples

attribute [local instance] Text.asciiDatabase FloatArithmetic.rational

theorem sample_agreement : ∃ day state,
    ReplayedTo .exact sampleLedger sampleBars (sampleDay 0) (sampleDay 7) day state ∧
    derivePositions .exact (sampleLedger.filter fun t => t.utcDate ≤ day) =
      .ok (openPositions state.account.positions) := by
  have accepted : derivePositions .exact sampleLedger = .ok [⟨"A", 1⟩] := by decide +kernel
  have range : sampleDay 0 ≤ sampleDay 7 := by decide
  obtain ⟨valuation, built⟩ := sample_built
  obtain ⟨day, state, reached⟩ := exists_replayedTo built
  exact ⟨day, state, reached, ((replay_agreement (F := ℚ) accepted range).2.2 sampleBars).2 day state reached⟩

end Samples
end LedgerLens

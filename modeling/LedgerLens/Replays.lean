import LedgerLens.Valuation
import LedgerLens.RunningPositions

namespace LedgerLens
open Decimal (Context)
open Checked (OnlyRaises)
open RunningSum (total)

/-- Quantity times unit price; zero where there are none. -/
def Transaction.tradeValue (t : Transaction) : ℚ :=
  (t.quantity.map Decimal.value).getD 0 * (t.unitPrice.map Decimal.value).getD 0

def Transaction.buyCost (t : Transaction) : ℚ := if t.transactionType = .buy then t.tradeValue else 0

def Transaction.sellProceeds (t : Transaction) : ℚ := if t.transactionType = .sell then t.tradeValue else 0

def Transaction.feesPaid (t : Transaction) : ℚ := t.fees.value

/-- What comes from outside with a transaction that finds so much cash: the stated amount of a
transfer, and of a BUY whatever the cash is short of. -/
def Transaction.externalFlow (cashBalance : ℚ) (t : Transaction) : ℚ :=
  match t.transactionType with
  | .deposit => (t.cashAmount.map Decimal.value).getD 0
  | .withdrawal => -(t.cashAmount.map Decimal.value).getD 0
  | .buy => max 0 (t.buyCost + t.feesPaid - cashBalance)
  | .sell => 0

variable [UnicodeDatabase]

/-- The effect of a transaction on an account. -/
structure Applied (account : Account) (t : Transaction) (next : Account) (flow : ℚ) : Prop where
  valid : t.Valid
  positions : next.positions = t.adjust account.positions
  nonneg : PositionsNonneg next.positions
  flow_eq : flow = t.externalFlow account.cashBalance
  cash : next.cashBalance = account.cashBalance + flow - t.feesPaid - t.buyCost + t.sellProceeds
  cash_nonneg : 0 ≤ next.cashBalance

theorem applyPositionChange_adjust {t : Transaction} (valid : t.Valid) {positions next : Dict String ℚ}
    (nonneg : PositionsNonneg positions) (changed : applyPositionChange .exact positions t = .ok next) :
    PositionsNonneg next ∧ next = t.adjust positions := by
  obtain ⟨kept, rfl⟩ := (valid.changePosition_eq_ok nonneg).mp changed
  exact ⟨kept, rfl⟩

theorem applyTransaction_applied {account next : Account} {t : Transaction} {flow : ℚ}
    (nonneg : PositionsNonneg account.positions) (run : applyTransaction .exact account t = .ok (next, flow)) :
    Applied account t next flow := by
  obtain ⟨_, checked, run⟩ := Checked.bind_eq_ok.mp run
  obtain ⟨⟨settled, external⟩, settles, run⟩ := Checked.bind_eq_ok.mp run
  obtain ⟨solvent, result⟩ := Checked.guard_eq_ok.mp run
  cases result
  have valid := validateTransaction_eq_ok.mp checked
  have notBuy : t.transactionType ≠ .buy → t.buyCost = 0 := fun other => if_neg other
  have notSell : t.transactionType ≠ .sell → t.sellProceeds = 0 := fun other => if_neg other
  cases kind : t.transactionType with
  | deposit =>
    obtain ⟨cashAmount, payload⟩ := valid.transfer (by rw [kind]; decide)
    simp only [settleTransaction, kind, payload.cashAmount_eq] at settles
    cases settles
    refine ⟨valid, by simp [Transaction.adjust, kind, TransactionType.isTrade], nonneg, ?_, ?_, not_lt.mp solvent⟩
    · simp [Transaction.externalFlow, kind, payload.cashAmount_eq]
    · simp only [notBuy (by simp [kind]), notSell (by simp [kind]), Transaction.feesPaid, Context.exact_add,
        Context.exact_sub]
      ring
  | withdrawal =>
    obtain ⟨cashAmount, payload⟩ := valid.transfer (by rw [kind]; decide)
    simp only [settleTransaction, kind, payload.cashAmount_eq] at settles
    obtain ⟨_, settles⟩ := Checked.guard_eq_ok.mp settles
    cases settles
    refine ⟨valid, by simp [Transaction.adjust, kind, TransactionType.isTrade], nonneg, ?_, ?_, not_lt.mp solvent⟩
    · simp [Transaction.externalFlow, kind, payload.cashAmount_eq]
    · simp only [notBuy (by simp [kind]), notSell (by simp [kind]), Transaction.feesPaid, Context.exact_add,
        Context.exact_sub, Context.exact_neg]
      ring
  | buy =>
    obtain ⟨symbol, quantity, unitPrice, payload⟩ := valid.trade (by rw [kind]; rfl)
    have cost : t.buyCost = quantity.value * unitPrice.value := by
      simp [Transaction.buyCost, kind, Transaction.tradeValue, payload.quantity_eq, payload.unitPrice_eq]
    simp only [settleTransaction, kind, payload.quantity_eq, payload.unitPrice_eq] at settles
    obtain ⟨positions, changed, settles⟩ := Checked.bind_eq_ok.mp settles
    cases settles
    obtain ⟨kept, adjusted⟩ := applyPositionChange_adjust valid nonneg changed
    have short : (if account.cashBalance < t.buyCost + t.feesPaid then t.buyCost + t.feesPaid - account.cashBalance
        else 0) = t.externalFlow account.cashBalance := by
      simp only [Transaction.externalFlow, kind]
      split
      · next less => rw [max_eq_right (by linarith)]
      · next enough => rw [max_eq_left (by linarith)]
    refine ⟨valid, adjusted, kept, ?_, ?_, not_lt.mp solvent⟩
    · rw [← short, cost]
      rfl
    · simp only [notSell (by simp [kind]), cost, Transaction.feesPaid, Context.exact_add, Context.exact_sub,
        Context.exact_mul]
      by_cases less : account.cashBalance < quantity.value * unitPrice.value + t.fees.value
      · simp only [less, if_true]
        ring
      · simp only [less, if_false]
        ring
  | sell =>
    obtain ⟨symbol, quantity, unitPrice, payload⟩ := valid.trade (by rw [kind]; rfl)
    have proceeds : t.sellProceeds = quantity.value * unitPrice.value := by
      simp [Transaction.sellProceeds, kind, Transaction.tradeValue, payload.quantity_eq, payload.unitPrice_eq]
    simp only [settleTransaction, kind, payload.quantity_eq, payload.unitPrice_eq] at settles
    obtain ⟨positions, changed, settles⟩ := Checked.bind_eq_ok.mp settles
    cases settles
    obtain ⟨kept, adjusted⟩ := applyPositionChange_adjust valid nonneg changed
    refine ⟨valid, adjusted, kept, by simp [Transaction.externalFlow, kind], ?_, not_lt.mp solvent⟩
    simp only [notBuy (by simp [kind]), proceeds, Transaction.feesPaid, Context.exact_add, Context.exact_sub,
      Context.exact_mul]
    ring

/-- One step of a replay that also adds up the external flow. -/
def applyNext (ctx : Context) (state : Account × ℚ) (transaction : Transaction) : Except Error (Account × ℚ) := do
  let (next, externalFlow) ← applyTransaction ctx state.1 transaction
  return (next, ctx.add state.2 externalFlow)

/-- Transactions folded in their order from zero cash and no positions: the account they lead to and
all the external flow on the way. -/
def replay (ctx : Context) (transactions : List Transaction) : Except Error (Account × ℚ) :=
  transactions.foldlM (applyNext ctx) ({}, 0)

theorem applyNext_eq_ok {ctx : Context} {state : Account × ℚ} {t : Transaction} {next : Account} {flow : ℚ} :
    applyNext ctx state t = .ok (next, flow) ↔
      ∃ externalFlow, applyTransaction ctx state.1 t = .ok (next, externalFlow) ∧
        ctx.add state.2 externalFlow = flow := by
  constructor
  · intro run
    obtain ⟨⟨account, externalFlow⟩, applied, result⟩ := Checked.bind_eq_ok.mp run
    cases result
    exact ⟨externalFlow, applied, rfl⟩
  · rintro ⟨externalFlow, applied, rfl⟩
    exact Checked.bind_eq_ok.mpr ⟨_, applied, rfl⟩

/-- What is known of an account that transactions were replayed into. -/
structure Replayed (transactions : List Transaction) (account : Account) (flow : ℚ) : Prop where
  valid : ∀ t ∈ transactions, t.Valid
  positions : account.positions = transactions.foldl Transaction.adjust .empty
  nonneg : PositionsNonneg account.positions
  cash : account.cashBalance = flow - total Transaction.feesPaid transactions -
    total Transaction.buyCost transactions + total Transaction.sellProceeds transactions
  cash_nonneg : 0 ≤ account.cashBalance

theorem Replayed.nil : Replayed [] {} 0 := ⟨by simp, rfl, positionsNonneg_empty, by simp, le_rfl⟩

theorem Replayed.snoc {transactions : List Transaction} {account next : Account} {flow externalFlow : ℚ}
    {t : Transaction} (replayed : Replayed transactions account flow)
    (run : applyTransaction .exact account t = .ok (next, externalFlow)) :
    Replayed (transactions ++ [t]) next (flow + externalFlow) := by
  have applied := applyTransaction_applied replayed.nonneg run
  refine ⟨List.forall_mem_append.mpr ⟨replayed.valid, List.forall_mem_singleton.mpr applied.valid⟩, ?_, applied.nonneg,
    ?_, applied.cash_nonneg⟩
  · rw [applied.positions, replayed.positions, List.foldl_concat]
  · rw [applied.cash, replayed.cash]
    simp only [RunningSum.total_append, RunningSum.total_cons, RunningSum.total_nil]
    ring

theorem replay_replayed {transactions : List Transaction} {account : Account} {flow : ℚ}
    (run : replay .exact transactions = .ok (account, flow)) : Replayed transactions account flow := by
  refine Checked.foldlM_prefix_invariant (fun seen state => Replayed seen state.1 state.2) .nil run ?_
  intro seen t later state next _ replayed step
  obtain ⟨externalFlow, applied, added⟩ := applyNext_eq_ok.mp step
  rw [← added]
  exact replayed.snoc applied

/-- Each position is the sum of the quantities bought less those sold. -/
theorem Replayed.quantity {transactions : List Transaction} {account : Account} {flow : ℚ}
    (replayed : Replayed transactions account flow) (symbol : String) :
    account.positions.getD symbol 0 = total (Transaction.signedQuantity symbol) transactions := by
  rw [replayed.positions, adjust_foldl_getD replayed.valid, Dict.getD_empty, zero_add]

theorem applyNext_foldlM_shift {transactions : List Transaction} {account next : Account} {flow total : ℚ}
    (run : transactions.foldlM (applyNext .exact) (account, flow) = .ok (next, total)) (more : ℚ) :
    transactions.foldlM (applyNext .exact) (account, more + flow) = .ok (next, more + total) := by
  induction transactions generalizing account flow with
  | nil =>
    cases Checked.pure_eq_ok.mp run
    rfl
  | cons t rest ih =>
    obtain ⟨⟨middle, passed⟩, step, run⟩ := Checked.foldlM_cons_eq_ok.mp run
    obtain ⟨externalFlow, applied, added⟩ := applyNext_eq_ok.mp step
    refine Checked.foldlM_cons_eq_ok.mpr ⟨(middle, more + passed), applyNext_eq_ok.mpr ⟨externalFlow, applied, ?_⟩,
      ih run⟩
    rw [← added]
    simp only [Context.exact_add]
    ring

omit [UnicodeDatabase] in
theorem transactionDate_eq_ok {t : Transaction} {date : Date} :
    transactionDate t = .ok date ↔ t.occurredAt.astimezoneUtc.isSome ∧ date = t.utcDate := by
  rw [transactionDate, Checked.bind_eq_ok]
  constructor
  · rintro ⟨utc, converted, result⟩
    cases Checked.pure_eq_ok.mp result
    obtain ⟨isUtc, same⟩ := astimezoneUtc_eq_ok.mp converted
    refine ⟨?_, ?_⟩
    · rw [DateTime.astimezoneUtc_eq_some.mpr ⟨isUtc, same⟩]
      rfl
    · rw [DateTime.date_of_isUtc isUtc, Transaction.utcDate, DateTime.utcDate, DateTime.utcDate, same]
  · rintro ⟨convertible, rfl⟩
    obtain ⟨utc, converted⟩ := Option.isSome_iff_exists.mp convertible
    obtain ⟨isUtc, same⟩ := DateTime.astimezoneUtc_eq_some.mp converted
    refine ⟨utc, astimezoneUtc_eq_ok.mpr ⟨isUtc, same⟩, Checked.pure_eq_ok.mpr ?_⟩
    rw [DateTime.date_of_isUtc isUtc, Transaction.utcDate, DateTime.utcDate, DateTime.utcDate, same]

theorem includedTransactions_eq_ok {endDate : Date} {transactions included : List Transaction} :
    includedTransactions endDate transactions = .ok included ↔
      (∀ t ∈ transactions, t.Valid ∧ t.occurredAt.astimezoneUtc.isSome) ∧
        included = transactions.filter fun t => t.utcDate ≤ endDate := by
  induction transactions generalizing included with
  | nil =>
    refine ⟨fun run => ⟨by simp, ?_⟩, ?_⟩
    · cases run
      rfl
    · rintro ⟨_, rfl⟩
      rfl
  | cons t rest ih =>
    simp only [includedTransactions, Checked.bind_eq_ok, transactionDate_eq_ok, ih,
      Checked.pure_eq_ok, List.forall_mem_cons, List.filter_cons, decide_eq_true_eq]
    constructor
    · rintro ⟨_, checked, _, ⟨convertible, rfl⟩, _, ⟨others, rfl⟩, rfl⟩
      exact ⟨⟨⟨validateTransaction_eq_ok.mp checked, convertible⟩, others⟩, rfl⟩
    · rintro ⟨⟨⟨valid, convertible⟩, others⟩, rfl⟩
      exact ⟨⟨⟩, validateTransaction_eq_ok.mpr valid, _, ⟨convertible, rfl⟩, _, ⟨others, rfl⟩, rfl⟩

/-- `_ordered_transactions` sorts what is dated up to the end, after checking everything. -/
theorem orderedTransactions_eq_ok {transactions ordered : List Transaction} {endDate : Date} :
    orderedTransactions transactions endDate = .ok ordered ↔
      (∀ t ∈ transactions, t.Valid ∧ t.occurredAt.astimezoneUtc.isSome) ∧
        ordered = ledgerSorted (transactions.filter fun t => t.utcDate ≤ endDate) := by
  simp only [orderedTransactions, Checked.bind_eq_ok, includedTransactions_eq_ok, sortOnM_ledgerOrder_eq_ok]
  constructor
  · rintro ⟨_, ⟨checked, rfl⟩, _, rfl⟩
    exact ⟨checked, rfl⟩
  · rintro ⟨checked, rfl⟩
    exact ⟨_, ⟨checked, rfl⟩, fun t member => (checked t (List.mem_of_mem_filter member)).2, rfl⟩

omit [UnicodeDatabase] in
theorem transactionDate_onlyRaises {P : Error → Prop} (overflow : P .overflowError) (t : Transaction) :
    OnlyRaises P (transactionDate t) :=
  (astimezoneUtc_onlyRaises overflow _).bind fun _ _ => .ok _

/-- Only the checks and the dates raise: what has passed them can be sorted. -/
theorem orderedTransactions_onlyRaises {P : Error → Prop} {transactions : List Transaction}
    (raises : ∀ t ∈ transactions, OnlyRaises P (validateTransaction t) ∧ (t.Valid → OnlyRaises P (transactionDate t)))
    (endDate : Date) : OnlyRaises P (orderedTransactions transactions endDate) := by
  have included : OnlyRaises P (includedTransactions endDate transactions) := by
    induction transactions with
    | nil => exact .ok _
    | cons t rest ih =>
      obtain ⟨⟨checks, dates⟩, tail⟩ := List.forall_mem_cons.mp raises
      refine checks.bind fun _ checked => (dates (validateTransaction_eq_ok.mp checked)).bind fun _ _ => ?_
      exact (ih tail).bind fun _ _ => .ok _
  refine included.bind fun kept run => ?_
  obtain ⟨checked, rfl⟩ := includedTransactions_eq_ok.mp run
  rw [sortOnM_ledgerOrder_eq_ok.mpr ⟨fun t member => (checked t (List.mem_of_mem_filter member)).2, rfl⟩]
  exact .ok _

/-- The inner loop is a fold over the transactions that the day has reached. -/
theorem replayThrough_eq (ctx : Context) (day : Date) {remaining : List Transaction}
    (convertible : ∀ t ∈ remaining, t.occurredAt.astimezoneUtc.isSome) (account : Account) (pending : ℚ) :
    replayThrough ctx day account pending remaining = do
      let (next, flow) ← (remaining.takeWhile fun t => t.utcDate ≤ day).foldlM (applyNext ctx) (account, pending)
      return (next, flow, remaining.dropWhile fun t => t.utcDate ≤ day) := by
  induction remaining generalizing account pending with
  | nil => rfl
  | cons t rest ih =>
    obtain ⟨head, tail⟩ := List.forall_mem_cons.mp convertible
    rw [replayThrough, transactionDate_eq_ok.mpr ⟨head, rfl⟩, Checked.ok_bind]
    by_cases reached : t.utcDate ≤ day
    · rw [if_neg (not_lt.mpr reached), List.takeWhile_cons_of_pos (by simpa using reached),
        List.dropWhile_cons_of_pos (by simpa using reached), List.foldlM_cons]
      cases applied : applyTransaction ctx account t with
      | error raised => simp only [applyNext, applied]; rfl
      | ok result =>
        obtain ⟨next, externalFlow⟩ := result
        rw [applyNext_eq_ok.mpr ⟨externalFlow, applied, rfl⟩, Checked.ok_bind, Checked.ok_bind]
        exact ih tail next _
    · rw [if_pos (not_le.mp reached), List.takeWhile_cons_of_neg (by simpa using reached),
        List.dropWhile_cons_of_neg (by simpa using reached)]
      rfl

end LedgerLens

import LedgerLens.Replays
import LedgerLens.FullPrecision

namespace LedgerLens
open Decimal (Context)

/-- What a BUY costs, in the arithmetic of the context. -/
def Transaction.requiredCash (ctx : Context) (t : Transaction) : ℚ :=
  ctx.add (ctx.mul ((t.quantity.map Decimal.value).getD 0) ((t.unitPrice.map Decimal.value).getD 0)) t.fees.value

section Contributions
variable [UnicodeDatabase]

/-- A BUY that a run comes to with less cash than it costs. -/
structure Underfunded (transactions : List Transaction) (account : Account) (t : Transaction) : Prop where
  reached : ∃ earlier later flow,
    transactions = earlier ++ t :: later ∧ replay defaultContext earlier = .ok (account, flow)
  buy : t.transactionType = .buy
  short : account.cashBalance < t.requiredCash defaultContext

/-- The transaction goes through with an external flow of exactly what the cash is short of, and no
cash is left. -/
def ContributesShortfall (account : Account) (t : Transaction) : Prop :=
  ∃ next, applyTransaction defaultContext account t = .ok (next, t.requiredCash defaultContext - account.cashBalance) ∧
    next.cashBalance = 0

theorem changePosition_buy (ctx : Context) (exceeds : String → Error) (positions : Dict String ℚ) {t : Transaction}
    (valid : t.Valid) (buy : t.transactionType = .buy) :
    ∃ next, changePosition ctx exceeds positions t = .ok next := by
  obtain ⟨symbol, quantity, unitPrice, payload⟩ := valid.trade (by rw [buy]; rfl)
  exact ⟨_, by simp [changePosition, buy, payload.symbol_eq, payload.quantity_eq]; rfl⟩

/-- An underfunded BUY first tops up the cash by the rounded shortfall. -/
theorem applyTransaction_underfunded {ctx : Context} {account : Account} {t : Transaction} (valid : t.Valid)
    (buy : t.transactionType = .buy) (short : account.cashBalance < t.requiredCash ctx) :
    ∃ positions, applyTransaction ctx account t =
      let contribution := ctx.sub (t.requiredCash ctx) account.cashBalance
      let cashBalance := ctx.sub (ctx.add account.cashBalance contribution) (t.requiredCash ctx)
      if cashBalance < 0 then
        .error (.invalidPortfolioValuation "transaction fees exceed the available cash balance")
      else .ok (⟨positions, cashBalance⟩, contribution) := by
  obtain ⟨positions, changed⟩ := changePosition_buy ctx .invalidPortfolioValuation account.positions valid buy
  obtain ⟨symbol, quantity, unitPrice, payload⟩ := valid.trade (by rw [buy]; rfl)
  have cost : ctx.add (ctx.mul quantity.value unitPrice.value) t.fees.value = t.requiredCash ctx := by
    simp [Transaction.requiredCash, payload.quantity_eq, payload.unitPrice_eq]
  refine ⟨positions, ?_⟩
  rw [applyTransaction, validateTransaction_eq_ok.mpr valid, Checked.ok_bind]
  simp only [settleTransaction, buy, payload.quantity_eq, payload.unitPrice_eq, applyPositionChange, changed, cost,
    short, if_true]
  rfl

/-- An underfunded BUY contributes its shortfall exactly when the context can store it. -/
theorem contributesShortfall_iff {account : Account} {t : Transaction} (valid : t.Valid)
    (buy : t.transactionType = .buy) (short : account.cashBalance < t.requiredCash defaultContext) :
    ContributesShortfall account t ↔ Representable (t.requiredCash defaultContext - account.cashBalance) := by
  obtain ⟨positions, applied⟩ := applyTransaction_underfunded valid buy short
  constructor
  · rintro ⟨next, run, _⟩
    rw [applied] at run
    obtain ⟨_, result⟩ := Checked.guard_eq_ok.mp run
    have contributed := congrArg Prod.snd (Except.ok.inj result)
    exact defaultContext_round_eq_self_iff.mp contributed
  · intro fits
    have contributed : defaultContext.sub (t.requiredCash defaultContext) account.cashBalance =
        t.requiredCash defaultContext - account.cashBalance := defaultContext_round_eq_self_iff.mpr fits
    -- The cost is itself the result of an addition, so topping the cash up to it rounds nothing.
    have topped : defaultContext.add account.cashBalance (t.requiredCash defaultContext - account.cashBalance) =
        t.requiredCash defaultContext := by
      rw [Context.add, add_sub_cancel]
      exact defaultContext_round_round _
    have spent : defaultContext.sub (t.requiredCash defaultContext) (t.requiredCash defaultContext) = 0 := by
      rw [Context.sub, sub_self]
      exact Rounding.round_zero
    simp only [contributed, topped, spent, lt_irrefl, if_false] at applied
    exact ⟨_, applied, rfl⟩

/-- In every run, each BUY that finds too little cash contributes exactly its shortfall if and only if
the shortfall has no more digits than the context keeps. -/
theorem shortfall_contributed_iff {transactions : List Transaction} (valid : ∀ t ∈ transactions, t.Valid)
    {account : Account} {t : Transaction} (underfunded : Underfunded transactions account t) :
    ContributesShortfall account t ↔ Representable (t.requiredCash defaultContext - account.cashBalance) := by
  obtain ⟨earlier, later, flow, split, _⟩ := underfunded.reached
  exact contributesShortfall_iff (valid t (by simp [split])) underfunded.buy underfunded.short

end Contributions

section Samples

attribute [local instance] Text.asciiDatabase

/-- A deposit of 0.00000005. -/
def smallDeposit : Transaction where
  id := ⟨1⟩
  portfolioId := ⟨2⟩
  externalId := "deposit"
  transactionType := .deposit
  occurredAt := .ofInstant (738886 * 86400000000) (by unfold DateTime.ceiling DateTime.microsPerDay; omega)
  cashAmount := some (.finite false 5 (-8))

/-- A purchase whose cost has 28 digits, the last of them the tenth million of a unit. -/
def largeBuy : Transaction where
  id := ⟨3⟩
  portfolioId := ⟨2⟩
  externalId := "buy"
  transactionType := .buy
  occurredAt := .ofInstant (738887 * 86400000000) (by unfold DateTime.ceiling DateTime.microsPerDay; omega)
  symbol := some "A"
  quantity := some (.finite false 999999999000000001 (-7))
  unitPrice := some (.finite false 1000000001 0)

theorem smallDeposit_withinBounds : smallDeposit.WithinBounds where
  quantity quantity listed := nomatch listed
  unitPrice unitPrice listed := nomatch listed
  cashAmount cashAmount listed := Option.some.inj listed ▸ withinDigits_value 8 le_rfl (by decide)
  fees := withinDigits_value 0 (by decide) (by decide)

theorem largeBuy_withinBounds : largeBuy.WithinBounds where
  quantity quantity listed := Option.some.inj listed ▸ withinDigits_value 7 (by decide) (by decide)
  unitPrice unitPrice listed := Option.some.inj listed ▸ withinDigits_value 0 (by decide) (by decide)
  cashAmount cashAmount listed := nomatch listed
  fees := withinDigits_value 0 (by decide) (by decide)

/-- The shortfall needs 29 digits; rounded down, it leaves the cash short and the BUY is refused. -/
theorem large_buy_refused : ∃ account, Underfunded [smallDeposit, largeBuy] account largeBuy ∧
    (∀ t ∈ [smallDeposit, largeBuy], t.Valid ∧ t.WithinBounds) ∧
    applyTransaction defaultContext account largeBuy =
      .error (.invalidPortfolioValuation "transaction fees exceed the available cash balance") ∧
    ¬ ContributesShortfall account largeBuy := by
  have refused : applyTransaction defaultContext { cashBalance := 5 / 10 ^ 8 } largeBuy =
      .error (.invalidPortfolioValuation "transaction fees exceed the available cash balance") := by
    decide +kernel
  refine ⟨{ cashBalance := 5 / 10 ^ 8 }, ⟨⟨[smallDeposit], [], 5 / 10 ^ 8, rfl, by decide +kernel⟩, rfl,
    by decide +kernel⟩,
    ?_, refused, ?_⟩
  · simp only [List.forall_mem_cons, List.not_mem_nil, false_implies, implies_true, and_true]
    exact ⟨⟨validateTransaction_eq_ok.mp (by decide +kernel), smallDeposit_withinBounds⟩,
      validateTransaction_eq_ok.mp (by decide +kernel), largeBuy_withinBounds⟩
  · rintro ⟨next, run, _⟩
    rw [refused] at run
    cases run

theorem sample_shortfall : ContributesShortfall {} (unitTrade .buy 0 10000000000000) := by
  have valid : ∀ t ∈ [unitTrade .buy 0 10000000000000], t.Valid :=
    List.forall_mem_singleton.mpr (validateTransaction_eq_ok.mp (by decide +kernel))
  have underfunded : Underfunded [unitTrade .buy 0 10000000000000] {} (unitTrade .buy 0 10000000000000) :=
    ⟨⟨[], [], 0, rfl, rfl⟩, rfl, by decide +kernel⟩
  exact (shortfall_contributed_iff valid underfunded).mpr ⟨10, 0, by decide, by decide +kernel⟩

end Samples
end LedgerLens

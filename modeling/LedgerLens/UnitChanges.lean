import LedgerLens.AnalyticsService
import LedgerLens.Library.Mirroring
import LedgerLens.Library.Rescaling

namespace LedgerLens
open Decimal (Context Rescaled)
open Checked (Parallel)

/-- A change of units: of the unit of money, and for each symbol of the unit that it is counted in. -/
structure Units (ctx : Context) where
  money : ℚ
  shares : String → ℚ
  money_scales : ctx.Scales money
  shares_scales : ∀ symbol, ctx.Scales (shares symbol)

namespace Units
variable {ctx : Context} (units : Units ctx)

/-- The factor of the prices of a symbol. -/
def price (symbol : String) : ℚ := units.money / units.shares symbol

/-- A transaction and the same one in the other units. -/
structure SameTransaction (t t' : Transaction) : Prop where
  unchanged : t' = { t with
    quantity := t'.quantity, unitPrice := t'.unitPrice, cashAmount := t'.cashAmount, fees := t'.fees }
  quantity : Option.Rel (Rescaled (units.shares (t.symbol.getD ""))) t.quantity t'.quantity
  unitPrice : Option.Rel (Rescaled (units.price (t.symbol.getD ""))) t.unitPrice t'.unitPrice
  cashAmount : Option.Rel (Rescaled units.money) t.cashAmount t'.cashAmount
  fees : Rescaled units.money t.fees t'.fees

structure SameBar [UnicodeDatabase] (bar bar' : PriceBar) : Prop where
  unchanged : bar' = { bar with adjustedClose := bar'.adjustedClose }
  adjustedClose : Rescaled (units.price (Text.upper bar.symbol)) bar.adjustedClose bar'.adjustedClose

def quantities (positions : Dict String ℚ) : Dict String ℚ :=
  positions.mapValues fun symbol quantity => units.shares symbol * quantity

def prices (latestPrices : Dict String ℚ) : Dict String ℚ :=
  latestPrices.mapValues fun symbol price => units.price symbol * price

def account (account : Account) : Account where
  positions := units.quantities account.positions
  cashBalance := units.money * account.cashBalance

def position (position : Position) : Position :=
  { position with quantity := units.shares position.symbol * position.quantity }

def point (point : PortfolioValuePoint) : PortfolioValuePoint where
  date := point.date
  totalValue := units.money * point.totalValue
  cashBalance := units.money * point.cashBalance
  netExternalFlow := units.money * point.netExternalFlow

def assetWeight (weight : AssetWeight) : AssetWeight :=
  { weight with marketValue := units.money * weight.marketValue }

def valuation {F : Type} (valuation : PortfolioValuation F) : PortfolioValuation F where
  points := valuation.points.map units.point
  periodReturns := valuation.periodReturns
  portfolioValue := units.money * valuation.portfolioValue
  cashBalance := units.money * valuation.cashBalance
  assetWeights := valuation.assetWeights.map units.assetWeight

def analytics {F : Type} (analytics : PortfolioAnalytics F) : PortfolioAnalytics F :=
  { analytics with
    portfolioValue := units.money * analytics.portfolioValue
    cashBalance := units.money * analytics.cashBalance
    assetWeights := analytics.assetWeights.map units.assetWeight }

end Units

section Transactions
variable {ctx : Context} {units : Units ctx}

theorem Units.price_pos (units : Units ctx) (symbol : String) : 0 < units.price symbol :=
  div_pos units.money_scales.positive (units.shares_scales symbol).positive

/-- What so many units are worth at a price is an amount of money. -/
theorem Units.shares_price (units : Units ctx) (symbol : String) :
    units.shares symbol * units.price symbol = units.money :=
  mul_div_cancel₀ _ (units.shares_scales symbol).positive.ne'

theorem Units.worth (units : Units ctx) (symbol : String) (quantity price : ℚ) :
    ctx.mul (units.shares symbol * quantity) (units.price symbol * price) = units.money * ctx.mul quantity price :=
  units.money_scales.mul (units.shares_price symbol) quantity price

theorem requirePositiveFinite_rescaled {factor : ℚ} (positive : 0 < factor) {value value' : Option Decimal}
    (same : Option.Rel (Rescaled factor) value value') (fieldName : String) :
    requirePositiveFinite value' fieldName = requirePositiveFinite value fieldName := by
  cases same with
  | none => rfl
  | @some x y rescaled =>
    have sign : y.value ≤ 0 ↔ x.value ≤ 0 := by
      rw [rescaled.value, ← not_lt, mul_pos_iff_of_pos_left positive, not_lt]
    simp only [requirePositiveFinite, rescaled.finite, sign]

theorem requireNonNegativeFinite_rescaled {factor : ℚ} (positive : 0 < factor) {x y : Decimal}
    (rescaled : Rescaled factor x y) (fieldName : String) :
    requireNonNegativeFinite y fieldName = requireNonNegativeFinite x fieldName := by
  have sign : y.value < 0 ↔ x.value < 0 := by
    rw [rescaled.value, ← not_le, mul_nonneg_iff_of_pos_left positive, not_le]
  simp only [requireNonNegativeFinite, rescaled.finite, sign]

theorem optionRel_isSome {α β : Type} {R : α → β → Prop} {a : Option α} {b : Option β} (same : Option.Rel R a b) :
    b.isSome = a.isSome := by
  cases same <;> rfl

namespace Units.SameTransaction
variable {t t' : Transaction} (same : units.SameTransaction t t')
include same

theorem transactionType : t'.transactionType = t.transactionType := by rw [same.unchanged]
theorem symbol : t'.symbol = t.symbol := by rw [same.unchanged]
theorem occurredAt : t'.occurredAt = t.occurredAt := by rw [same.unchanged]
theorem createdAt : t'.createdAt = t.createdAt := by rw [same.unchanged]
theorem id : t'.id = t.id := by rw [same.unchanged]
theorem externalId : t'.externalId = t.externalId := by rw [same.unchanged]
theorem portfolioId : t'.portfolioId = t.portfolioId := by rw [same.unchanged]

theorem date : transactionDate t' = transactionDate t := by rw [transactionDate, same.occurredAt, transactionDate]

theorem order : ledgerOrder t' = ledgerOrder t := by
  simp only [ledgerOrder, same.createdAt, same.occurredAt, same.id]

theorem key : t'.ledgerKey = t.ledgerKey := by
  simp only [Transaction.ledgerKey, same.createdAt, same.occurredAt, same.id]

variable [UnicodeDatabase]

/-- The validation looks at signs, and not at sizes. -/
theorem validate : validateTransaction t' = validateTransaction t := by
  have money_pos := units.money_scales.positive
  have fees := requireNonNegativeFinite_rescaled money_pos same.fees
  have quantity := requirePositiveFinite_rescaled (units.shares_scales _).positive same.quantity
  have unitPrice := requirePositiveFinite_rescaled (units.price_pos _) same.unitPrice
  have cashAmount := requirePositiveFinite_rescaled money_pos same.cashAmount
  simp only [validateTransaction, validateTrade, validateTransfer, same.externalId, same.occurredAt, same.createdAt,
    same.transactionType, same.symbol, fees, quantity, unitPrice, cashAmount, optionRel_isSome same.quantity,
    optionRel_isSome same.unitPrice, optionRel_isSome same.cashAmount]

end Units.SameTransaction
end Transactions

section Ledgers
variable {ctx : Context} {units : Units ctx}

@[simp] theorem Units.quantities_getD (positions : Dict String ℚ) (symbol : String) :
    (units.quantities positions).getD symbol 0 = units.shares symbol * positions.getD symbol 0 := by
  rw [quantities, Dict.getD, Dict.mapValues_get?, Dict.getD]
  cases positions.get? symbol with
  | none => exact (mul_zero _).symm
  | some quantity => rfl

theorem Units.quantities_set (positions : Dict String ℚ) (symbol : String) (quantity : ℚ) :
    (units.quantities positions).set symbol (units.shares symbol * quantity) =
      units.quantities (positions.set symbol quantity) :=
  (Dict.mapValues_set _ _ _ _).symm

/-- A change of a position is the same change in the other units. -/
theorem changePosition_rescaled (exceeds : String → Error) (positions : Dict String ℚ) {t t' : Transaction}
    (same : units.SameTransaction t t') :
    Parallel Eq (fun next next' => next' = units.quantities next) (changePosition ctx exceeds positions t)
      (changePosition ctx exceeds (units.quantities positions) t') := by
  have quantity := same.quantity
  unfold changePosition
  rw [same.transactionType, same.symbol]
  generalize t.symbol = symbol at quantity ⊢
  generalize t.quantity = amount, t'.quantity = amount' at quantity ⊢
  split
  · exact .ok rfl
  · cases quantity with
    | none => cases symbol <;> exact .error rfl
    | some rescaled =>
      cases symbol with
      | none => exact .error rfl
      | some symbol =>
        have scales := units.shares_scales symbol
        simp only [Units.quantities_getD, rescaled.value, Option.getD_some, scales.add, scales.sub,
          Units.quantities_set]
        split
        · exact .ok rfl
        · exact .guard (scales.neg_iff _).symm rfl fun _ => .ok rfl

/-- What a transaction does to an account, and the flow from outside that it brings. -/
def Units.Settled (units : Units ctx) (settled settled' : Account × ℚ) : Prop :=
  settled' = (units.account settled.1, units.money * settled.2)

theorem settleTransaction_rescaled (account : Account) {t t' : Transaction} (same : units.SameTransaction t t') :
    Parallel Eq units.Settled (settleTransaction ctx account t)
      (settleTransaction ctx (units.account account) t') := by
  have money := units.money_scales
  have changed := changePosition_rescaled .invalidPortfolioValuation account.positions same
  have quantity := same.quantity
  have unitPrice := same.unitPrice
  have cashAmount := same.cashAmount
  unfold settleTransaction
  simp only [same.transactionType, same.fees.value]
  generalize t.cashAmount = cash, t'.cashAmount = cash' at cashAmount ⊢
  generalize t.quantity = amount, t'.quantity = amount' at quantity ⊢
  generalize t.unitPrice = price, t'.unitPrice = price' at unitPrice ⊢
  cases t.transactionType with
  | deposit =>
    cases cashAmount with
    | none => exact .error rfl
    | some cash =>
      refine .ok ?_
      simp only [Units.Settled, Units.account, cash.value, money.sub, money.add]
  | withdrawal =>
    cases cashAmount with
    | none => exact .error rfl
    | some cash =>
      simp only [Units.account, cash.value, money.add]
      refine .guard (money.lt _ _).symm rfl fun _ => .ok ?_
      simp only [Units.Settled, Units.account, money.sub, money.neg]
  | buy =>
    cases quantity with
    | none => exact .error rfl
    | some quantity =>
      cases unitPrice with
      | none => exact .error rfl
      | some price =>
        refine changed.bind fun positions positions' next => .ok ?_
        subst next
        simp only [Units.Settled, Units.account, quantity.value, price.value, units.worth, money.add, money.sub,
          money.lt]
        split <;> simp only [money.add, money.sub, mul_zero]
  | sell =>
    cases quantity with
    | none => exact .error rfl
    | some quantity =>
      cases unitPrice with
      | none => exact .error rfl
      | some price =>
        refine changed.bind fun positions positions' next => .ok ?_
        subst next
        simp only [Units.Settled, Units.account, quantity.value, price.value, units.worth, money.add, money.sub,
          mul_zero]

variable [UnicodeDatabase]

theorem applyTransaction_rescaled (account : Account) {t t' : Transaction} (same : units.SameTransaction t t') :
    Parallel Eq units.Settled (applyTransaction ctx account t) (applyTransaction ctx (units.account account) t') := by
  unfold applyTransaction
  rw [same.validate]
  refine .after _ fun _ => ?_
  refine (settleTransaction_rescaled account same).bind fun settled settled' next => ?_
  subst next
  exact .guard (units.money_scales.neg_iff _).symm rfl fun _ => .ok rfl

theorem includedTransactions_rescaled (endDate : Date) {transactions transactions' : List Transaction}
    (same : List.Forall₂ units.SameTransaction transactions transactions') :
    Parallel Eq (List.Forall₂ units.SameTransaction) (includedTransactions endDate transactions)
      (includedTransactions endDate transactions') := by
  induction same with
  | nil => exact .ok .nil
  | @cons t t' rest rest' head _ ih =>
    rw [includedTransactions, includedTransactions, head.validate, head.date]
    refine .after _ fun _ => ?_
    refine .after _ fun date => ?_
    refine ih.bind fun included included' kept => .ok ?_
    split
    · exact .cons head kept
    · exact kept

theorem orderedTransactions_rescaled (endDate : Date) {transactions transactions' : List Transaction}
    (same : List.Forall₂ units.SameTransaction transactions transactions') :
    Parallel Eq (List.Forall₂ units.SameTransaction) (orderedTransactions transactions endDate)
      (orderedTransactions transactions' endDate) :=
  (includedTransactions_rescaled endDate same).bind fun _ _ included =>
    .sortOnM (fun _ => rfl) included fun _ _ same => same.order.symm

omit [UnicodeDatabase] in
theorem openingPositions_rescaled (startDate : Date) {ordered ordered' : List Transaction}
    (same : List.Forall₂ units.SameTransaction ordered ordered') :
    Parallel Eq (fun positions positions' => positions' = units.quantities positions)
      (openingPositions ctx startDate ordered) (openingPositions ctx startDate ordered') := by
  refine .foldlM_forall₂ same (fun positions positions' t t' related head => ?_) rfl
  subst related
  rw [head.date]
  refine .after _ fun date => ?_
  split
  · exact .ok rfl
  · exact changePosition_rescaled _ positions head

omit [UnicodeDatabase] in
theorem activePositions_rescaled (positions : Dict String ℚ) :
    activePositions (units.quantities positions) =
      (activePositions positions).map fun entry => (entry.1, units.shares entry.1 * entry.2) := by
  rw [activePositions, Units.quantities, Dict.mapValues_entries, List.filter_map, activePositions]
  congr 1
  refine List.filter_congr fun entry _ => ?_
  exact decide_eq_decide.mpr (not_congr ((units.shares_scales entry.1).eq_zero entry.2))

omit [UnicodeDatabase] in
theorem activeSymbols_rescaled (positions : Dict String ℚ) :
    (activePositions (units.quantities positions)).map Prod.fst = (activePositions positions).map Prod.fst := by
  rw [activePositions_rescaled, List.map_map]
  rfl

/-- The same symbols need prices. -/
theorem requiredPriceSymbols_rescaled (startDate endDate : Date) {transactions transactions' : List Transaction}
    (same : List.Forall₂ units.SameTransaction transactions transactions') :
    Parallel Eq Eq (requiredPriceSymbols ctx transactions startDate endDate)
      (requiredPriceSymbols ctx transactions' startDate endDate) := by
  refine .after _ fun _ => ?_
  refine (orderedTransactions_rescaled endDate same).bind fun ordered ordered' sorted => ?_
  refine (openingPositions_rescaled startDate sorted).bind fun positions _ opened => ?_
  subst opened
  have dates : Parallel Eq (List.Forall₂ Eq) (ordered.mapM transactionDate) (ordered'.mapM transactionDate) :=
    .mapM sorted fun t t' head => by rw [head.date]; exact .refl (fun _ => rfl) _
  refine dates.bind fun dates dates' equal => .ok ?_
  rw [List.forall₂_eq_eq_eq] at equal
  subst equal
  have traded : ((dates.zip ordered).filter fun dated => startDate ≤ dated.1).filterMap (fun dated => dated.2.symbol) =
      ((dates.zip ordered').filter fun dated => startDate ≤ dated.1).filterMap (fun dated => dated.2.symbol) := by
    clear * - sorted
    induction sorted generalizing dates with
    | nil => cases dates <;> rfl
    | @cons t t' rest rest' head _ ih =>
      cases dates with
      | nil => rfl
      | cons date dates =>
        rw [List.zip_cons_cons, List.zip_cons_cons, List.filter_cons, List.filter_cons]
        split
        · rw [List.filterMap_cons, List.filterMap_cons, head.symbol, ih]
        · exact ih dates
  rw [activeSymbols_rescaled, traded]

end Ledgers
end LedgerLens

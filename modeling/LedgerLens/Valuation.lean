import LedgerLens.LedgerOrder
import LedgerLens.Library.FloatArithmetic

namespace LedgerLens
open Decimal (Context)

/-- `_validate_date_range` -/
def validateDateRange (startDate endDate : Date) : Except Error Unit :=
  if endDate < startDate then
    .error (.invalidPortfolioValuation "start_date must not be after end_date")
  else .ok ()

/-- `_transaction_date` -/
def transactionDate (transaction : Transaction) : Except Error Date := do
  let occurredAt ← astimezoneUtc transaction.occurredAt
  return occurredAt.date

/-- `_apply_position_change` -/
def applyPositionChange (ctx : Context) (positions : Dict String ℚ) (transaction : Transaction) :
    Except Error (Dict String ℚ) :=
  changePosition ctx .invalidPortfolioValuation positions transaction

/-- A set of values in ascending order. -/
def sortedSet {κ : Type} [LinearOrder κ] (values : List κ) : List κ :=
  StableSort.sortOn id values.dedup

/-- The security positions and the cash of a replay. -/
structure Account where
  positions : Dict String ℚ := .empty
  cashBalance : ℚ := 0
  deriving DecidableEq

/-- The positions that are not zero. -/
def activePositions (positions : Dict String ℚ) : List (String × ℚ) :=
  positions.entries.filter fun entry => entry.2 ≠ 0

/-- Decimal division, which raises on a zero denominator. -/
def divide (ctx : Context) (x y : ℚ) : Except Error ℚ :=
  if y = 0 then .error .divisionByZero else .ok (ctx.div x y)

/-- The market value of every active position; a missing price is a missing dictionary key. -/
def assetValues (ctx : Context) (positions : Dict String ℚ) (latestPrices : Dict String ℚ) :
    Except Error (List (String × ℚ)) :=
  (activePositions positions).mapM fun (symbol, quantity) =>
    match latestPrices.get? symbol with
    | some price => .ok (symbol, ctx.mul quantity price)
    | none => .error (.keyError symbol)

variable [UnicodeDatabase]

/-- The loop of `_ordered_transactions`. -/
def includedTransactions (endDate : Date) : List Transaction → Except Error (List Transaction)
  | [] => .ok []
  | transaction :: rest => do
    validateTransaction transaction
    let date ← transactionDate transaction
    let included ← includedTransactions endDate rest
    return if date ≤ endDate then transaction :: included else included

/-- `_ordered_transactions` -/
def orderedTransactions (transactions : List Transaction) (endDate : Date) :
    Except Error (List Transaction) := do
  let included ← includedTransactions endDate transactions
  Checked.sortOnM ledgerOrder included

/-- The positions held when `startDate` begins. -/
def openingPositions (ctx : Context) (startDate : Date) (ordered : List Transaction) :
    Except Error (Dict String ℚ) :=
  ordered.foldlM (fun positions transaction => do
    let date ← transactionDate transaction
    if startDate ≤ date then return positions
    applyPositionChange ctx positions transaction) .empty

def requiredPriceSymbols (ctx : Context) (transactions : List Transaction) (startDate endDate : Date) :
    Except Error (List String) := do
  validateDateRange startDate endDate
  let ordered ← orderedTransactions transactions endDate
  let positions ← openingPositions ctx startDate ordered
  let dates ← ordered.mapM transactionDate
  let traded := ((dates.zip ordered).filter fun dated => startDate ≤ dated.1).filterMap fun dated =>
    dated.2.symbol
  return sortedSet ((activePositions positions).map Prod.fst ++ traded)

/-- The price map under upper-case symbols. -/
def normalizedInput (priceBarsBySymbol : Dict String (List PriceBar)) : Dict String (List PriceBar) :=
  priceBarsBySymbol.entries.foldl (fun normalized entry => normalized.set (Text.upper entry.1) entry.2) .empty

/-- One bar of the loop in `_validated_prices`. -/
def addPriceBar (symbol : String) (startDate endDate : Date) (symbolPrices : Dict Date ℚ)
    (priceBar : PriceBar) : Except Error (Dict Date ℚ) :=
  if Text.upper priceBar.symbol ≠ symbol then
    .error (.invalidPriceSeries ("price bar symbol " ++ priceBar.symbol ++ " does not match " ++ symbol))
  else if ¬ priceBar.adjustedClose.isFinite ∨ priceBar.adjustedClose.value ≤ 0 then
    .error (.invalidPriceSeries ("adjusted close must be finite and positive for " ++ symbol))
  else if ¬ (startDate ≤ priceBar.date ∧ priceBar.date ≤ endDate) then .ok symbolPrices
  else if (symbolPrices.get? priceBar.date).isSome then
    .error (.invalidPriceSeries ("duplicate price date for " ++ symbol ++ ": " ++ priceBar.date.isoformat))
  else .ok (symbolPrices.set priceBar.date priceBar.adjustedClose.value)

/-- `_validated_prices` -/
def validatedPrices (symbols : List String) (priceBarsBySymbol : Dict String (List PriceBar))
    (startDate endDate : Date) : Except Error (Dict String (Dict Date ℚ)) :=
  symbols.foldlM (fun validated symbol => do
    let priceBars := (normalizedInput priceBarsBySymbol).getD symbol []
    let symbolPrices ← priceBars.foldlM (addPriceBar symbol startDate endDate) .empty
    if symbolPrices.entries = [] then
      .error (.invalidPortfolioValuation ("no price bars fall within the requested range for " ++ symbol))
    else .ok (validated.set symbol symbolPrices)) .empty

/-- The branches of `_apply_transaction`: the account afterwards and the external flow. -/
def settleTransaction (ctx : Context) (account : Account) (transaction : Transaction) :
    Except Error (Account × ℚ) :=
  let fees := transaction.fees.value
  match transaction.transactionType, transaction.cashAmount, transaction.quantity, transaction.unitPrice with
  | .deposit, some cashAmount, _, _ =>
    .ok ({ account with cashBalance := ctx.add account.cashBalance (ctx.sub cashAmount.value fees) },
      cashAmount.value)
  | .withdrawal, some cashAmount, _, _ =>
    let requiredCash := ctx.add cashAmount.value fees
    if account.cashBalance < requiredCash then
      .error (.invalidPortfolioValuation "WITHDRAWAL exceeds the available cash balance")
    else
      .ok ({ account with cashBalance := ctx.sub account.cashBalance requiredCash }, ctx.neg cashAmount.value)
  | .buy, _, some quantity, some unitPrice =>
    let requiredCash := ctx.add (ctx.mul quantity.value unitPrice.value) fees
    let short := account.cashBalance < requiredCash
    let contribution := if short then ctx.sub requiredCash account.cashBalance else 0
    let funded := if short then ctx.add account.cashBalance contribution else account.cashBalance
    do
      let positions ← applyPositionChange ctx account.positions transaction
      return (⟨positions, ctx.sub funded requiredCash⟩, contribution)
  | .sell, _, some quantity, some unitPrice => do
    let positions ← applyPositionChange ctx account.positions transaction
    let proceeds := ctx.sub (ctx.mul quantity.value unitPrice.value) fees
    return (⟨positions, ctx.add account.cashBalance proceeds⟩, 0)
  | _, _, _, _ => .error .assertionError

/-- `_apply_transaction` -/
def applyTransaction (ctx : Context) (account : Account) (transaction : Transaction) :
    Except Error (Account × ℚ) := do
  validateTransaction transaction
  let (next, externalFlow) ← settleTransaction ctx account transaction
  if next.cashBalance < 0 then
    .error (.invalidPortfolioValuation "transaction fees exceed the available cash balance")
  else .ok (next, externalFlow)

/-- What the valuation loop carries from date to date; the cursor is the list still to be applied. -/
structure ReplayState where
  remaining : List Transaction
  account : Account := {}
  latestPrices : Dict String ℚ := .empty
  pendingExternalFlow : ℚ := 0
  points : List PortfolioValuePoint := []

/-- The prices known once the bars of a date have been seen. -/
def observePrices (pricesByDate : Dict String (Dict Date ℚ)) (valuationDate : Date)
    (latestPrices : Dict String ℚ) : Dict String ℚ :=
  pricesByDate.entries.foldl (fun latest entry =>
    match entry.2.get? valuationDate with
    | some currentPrice => latest.set entry.1 currentPrice
    | none => latest) latestPrices

/-- The inner `while`: apply the transactions dated up to `valuationDate`. -/
def replayThrough (ctx : Context) (valuationDate : Date) (account : Account) (pending : ℚ) :
    List Transaction → Except Error (Account × ℚ × List Transaction)
  | [] => .ok (account, pending, [])
  | transaction :: rest => do
    let date ← transactionDate transaction
    if valuationDate < date then return (account, pending, transaction :: rest)
    let (next, externalFlow) ← applyTransaction ctx account transaction
    replayThrough ctx valuationDate next (ctx.add pending externalFlow) rest

/-- One pass of the valuation loop. -/
def visitDate (ctx : Context) (pricesByDate : Dict String (Dict Date ℚ)) (state : ReplayState)
    (valuationDate : Date) : Except Error ReplayState := do
  let latestPrices := observePrices pricesByDate valuationDate state.latestPrices
  let (account, pending, remaining) ←
    replayThrough ctx valuationDate state.account state.pendingExternalFlow state.remaining
  let skipped : ReplayState := ⟨remaining, account, latestPrices, pending, state.points⟩
  if (activePositions account.positions).any fun entry => (latestPrices.get? entry.1).isNone then
    return skipped
  let values ← assetValues ctx account.positions latestPrices
  let totalValue := ctx.add account.cashBalance (ctx.sum (values.map Prod.snd))
  if totalValue ≤ 0 then return skipped
  return { skipped with
    pendingExternalFlow := 0
    points := state.points ++ [⟨valuationDate, totalValue, account.cashBalance, pending⟩] }

section Returns
variable {F : Type} [FloatArithmetic F]

/-- One pass of the loop in `_cash_flow_adjusted_returns`. -/
def periodReturn (ctx : Context) (previous current : PortfolioValuePoint) : Except Error F :=
  if previous.totalValue ≤ 0 then
    .error (.invalidPortfolioValuation "portfolio value must remain positive before calculating returns")
  else
    let adjustedValue := ctx.sub current.totalValue current.netExternalFlow
    if adjustedValue ≤ 0 then
      .error (.invalidPortfolioValuation "cash-flow-adjusted portfolio value must remain positive")
    else do
      let ratio ← divide ctx adjustedValue previous.totalValue
      return FloatArithmetic.ofRat (ctx.sub ratio 1)

/-- `_cash_flow_adjusted_returns` -/
def cashFlowAdjustedReturns (ctx : Context) (points : List PortfolioValuePoint) : Except Error (List F) :=
  (points.zip points.tail).mapM fun (previous, current) => periodReturn ctx previous current

/-- The part of `build_portfolio_valuation` after the loop. -/
def summarize (ctx : Context) (final : ReplayState) : Except Error (PortfolioValuation F) :=
  match final.points.getLast? with
  | none =>
    .error (.invalidPortfolioValuation "portfolio has no positive valuatable balance in the requested range")
  | some latestPoint =>
    let missingLatest := sortedSet (((activePositions final.account.positions).map Prod.fst).filter
      fun symbol => (final.latestPrices.get? symbol).isNone)
    match missingLatest with
    | symbol :: _ =>
      .error (.invalidPortfolioValuation ("no usable price is available for active symbol " ++ symbol))
    | [] => do
      let latestAssetValues ← assetValues ctx final.account.positions final.latestPrices
      let assetWeights ← (StableSort.sortOn Prod.fst latestAssetValues).mapM fun (symbol, marketValue) => do
        let weight ← divide ctx marketValue latestPoint.totalValue
        return (⟨symbol, marketValue, weight⟩ : AssetWeight)
      let periodReturns ← cashFlowAdjustedReturns ctx final.points
      return {
        points := final.points
        periodReturns := periodReturns
        portfolioValue := latestPoint.totalValue
        cashBalance := latestPoint.cashBalance
        assetWeights := assetWeights }

def buildPortfolioValuation (ctx : Context) (transactions : List Transaction)
    (priceBarsBySymbol : Dict String (List PriceBar)) (startDate endDate : Date) :
    Except Error (PortfolioValuation F) := do
  validateDateRange startDate endDate
  let symbols ← requiredPriceSymbols ctx transactions startDate endDate
  if symbols = [] then
    .error (.invalidPortfolioValuation "portfolio has no security holdings in the requested range")
  else do
    let pricesByDate ← validatedPrices symbols priceBarsBySymbol startDate endDate
    let valuationDates := sortedSet (pricesByDate.entries.flatMap fun entry => entry.2.keys)
    if valuationDates = [] then
      .error (.invalidPortfolioValuation "no market dates are available in the requested range")
    else do
      let ordered ← orderedTransactions transactions endDate
      let final ← valuationDates.foldlM (visitDate ctx pricesByDate) { remaining := ordered }
      summarize ctx final

end Returns
end LedgerLens

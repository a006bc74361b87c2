import LedgerLens.Models
import LedgerLens.Library.Checked
import LedgerLens.Library.FloatArithmetic

namespace LedgerLens
open Decimal (Context)
open FloatArithmetic

/-- One bar of the loop in `_validate_and_order`, which carries the dates seen so far. -/
def checkPriceBar (seenDates : List Date) (priceBar : PriceBar) : Except Error (List Date) :=
  if priceBar.date ∈ seenDates then
    .error (.invalidPriceSeries ("duplicate price date: " ++ priceBar.date.isoformat))
  else if ¬ priceBar.adjustedClose.isFinite ∨ priceBar.adjustedClose.value ≤ 0 then
    .error (.invalidPriceSeries ("adjusted close must be finite and positive on " ++ priceBar.date.isoformat))
  else .ok (priceBar.date :: seenDates)

/-- `_validate_and_order` -/
def validateAndOrder (priceBars : List PriceBar) : Except Error (List PriceBar) := do
  let orderedBars := StableSort.sortOn PriceBar.date priceBars
  let _ ← orderedBars.foldlM checkPriceBar []
  return orderedBars

variable {F : Type} [FloatArithmetic F]

def calculateSimpleReturns (ctx : Context) (priceBars : List PriceBar) : Except Error (List F) := do
  let orderedBars ← validateAndOrder priceBars
  return (orderedBars.zip orderedBars.tail).map fun (previous, current) =>
    ofRat (ctx.sub (ctx.div current.adjustedClose.value previous.adjustedClose.value) 1)

/-- `_validate_annualization_periods` -/
def validateAnnualizationPeriods (annualizationPeriods : Int) : Except Error Unit :=
  if annualizationPeriods ≤ 0 then .error (.valueError "annualization_periods must be positive") else .ok ()

def calculateAnnualizedVolatility (returns : List F) (annualizationPeriods : Int) :
    Except Error (Option F) := do
  validateAnnualizationPeriods annualizationPeriods
  if returns.length < 2 then return none
  return some (mul (stdev returns) (sqrt (ofRat annualizationPeriods)))

def calculateMaxDrawdown (ctx : Context) (priceBars : List PriceBar) : Except Error (Option F) := do
  let orderedBars ← validateAndOrder priceBars
  match orderedBars with
  | [] => return none
  | first :: rest =>
    let (_, maxDrawdown) := rest.foldl (fun (peak, maxDrawdown) priceBar =>
      let peak := Max.max peak priceBar.adjustedClose.value
      (peak, Min.min maxDrawdown (ctx.sub (ctx.div priceBar.adjustedClose.value peak) 1)))
      (first.adjustedClose.value, 0)
    return some (ofRat maxDrawdown)

def calculateSharpeRatio (ctx : Context) (returns : List F) (annualRiskFreeRate : Decimal)
    (annualizationPeriods : Int) : Except Error (Option F) := do
  validateAnnualizationPeriods annualizationPeriods
  if ¬ annualRiskFreeRate.isFinite then
    .error (.valueError "annual_risk_free_rate must be finite")
  else if returns.length < 2 then return none
  else
    let sampleVolatility := stdev returns
    if eq sampleVolatility (ofRat 0) then return none
    let periodRiskFreeRate : F := ofRat (ctx.div annualRiskFreeRate.value annualizationPeriods)
    return some (mul (div (sub (mean returns) periodRiskFreeRate) sampleVolatility)
      (sqrt (ofRat annualizationPeriods)))

def calculateCompoundedReturn (returns : List F) : Option F :=
  if returns = [] then none
  else some (sub (returns.foldl (fun wealth periodReturn => mul wealth (add (ofRat 1) periodReturn)) (ofRat 1))
    (ofRat 1))

/-- The wealth index, its peak and the worst drawdown so far. -/
structure DrawdownState (F : Type) where
  wealth : F
  peak : F
  maxDrawdown : F

def calculateMaxDrawdownFromReturns (returns : List F) : F :=
  (returns.foldl (fun (state : DrawdownState F) periodReturn =>
    let wealth := mul state.wealth (add (ofRat 1) periodReturn)
    let peak := FloatArithmetic.max state.peak wealth
    ⟨wealth, peak, FloatArithmetic.min state.maxDrawdown (sub (div wealth peak) (ofRat 1))⟩)
    ⟨ofRat 1, ofRat 1, ofRat 0⟩).maxDrawdown

end LedgerLens

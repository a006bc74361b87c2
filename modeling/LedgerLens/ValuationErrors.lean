import LedgerLens.ValuationFromScratch

namespace LedgerLens
open Decimal (Context)
open Checked (OnlyRaises)

/-- How the messages begin with which a valuation over valid transactions is refused, but for a SELL above
the position and a symbol without bars. -/
def valuationRefusals : List String := [
  "start_date must not be after end_date",
  "portfolio has no security holdings in the requested range",
  "no market dates are available in the requested range",
  "WITHDRAWAL exceeds the available cash balance",
  "transaction fees exceed the available cash balance",
  "portfolio has no positive valuatable balance in the requested range",
  "no usable price is available for active symbol ",
  "portfolio value must remain positive before calculating returns",
  "cash-flow-adjusted portfolio value must remain positive"]

theorem refusal_ne {label other : String} (long : 5 ≤ label.toByteArray.data.toList.length)
    (long' : 5 ≤ other.toByteArray.data.toList.length)
    (different : Text.leadingBytes 5 label ≠ Text.leadingBytes 5 other) (rest rest' : String) :
    Error.invalidPortfolioValuation (label ++ rest) ≠ .invalidPortfolioValuation (other ++ rest') := fun same =>
  Text.append_ne_append long long' different rest rest' (Error.invalidPortfolioValuation.inj same)

/-- The property holds of the errors of a valuation. -/
structure OfValuationErrors (P : Error → Prop) : Prop where
  keyError : ∀ key, P (.keyError key)
  divisionByZero : P .divisionByZero
  assertionError : P .assertionError
  refusal : ∀ label ∈ valuationRefusals, ∀ rest, P (.invalidPortfolioValuation (label ++ rest))

/-- With which messages the cash of an account refuses a transaction. -/
def cashRefusals : List String :=
  ["WITHDRAWAL exceeds the available cash balance", "transaction fees exceed the available cash balance"]

/-- The property holds of the errors that a transaction meets at an account, but for its position. -/
structure OfReplayErrors (P : Error → Prop) : Prop where
  assertionError : P .assertionError
  refusal : ∀ message ∈ cashRefusals, P (.invalidPortfolioValuation message)

section Replays
variable {P : Error → Prop}

theorem applyPositionChange_onlyRaises (assertionError : P .assertionError)
    (exceeds : ∀ symbol, P (.invalidPortfolioValuation ("SELL exceeds available position for " ++ symbol)))
    (ctx : Context) (positions : Dict String ℚ) (t : Transaction) :
    OnlyRaises P (applyPositionChange ctx positions t) := by
  unfold applyPositionChange changePosition
  split
  · exact .ok _
  · split
    · next symbol _ _ _ =>
      simp only
      split
      · exact .ok _
      · exact .guard (exceeds symbol) fun _ => .ok _
    · exact .error assertionError

variable [UnicodeDatabase]

theorem validatedPrices_onlyRaises (series : ∀ message, P (.invalidPriceSeries message))
    (range : ∀ symbol,
      P (.invalidPortfolioValuation ("no price bars fall within the requested range for " ++ symbol)))
    (symbols : List String) (priceBarsBySymbol : Dict String (List PriceBar)) (startDate endDate : Date) :
    OnlyRaises P (validatedPrices symbols priceBarsBySymbol startDate endDate) := by
  refine .foldlM (fun validated symbol _ => .bind (.foldlM (fun prices bar _ => ?_) _) fun _ _ => ?_) _
  · refine .guard (series _) fun _ => .guard (series _) fun _ => ?_
    split
    · exact .ok _
    · exact .guard (series _) fun _ => .ok _
  · exact .guard (range symbol) fun _ => .ok _

theorem applyTransaction_onlyRaises (errors : OfReplayErrors P) {ctx : Context} {account : Account} {t : Transaction}
    (valid : t.Valid) (changes : OnlyRaises P (applyPositionChange ctx account.positions t)) :
    OnlyRaises P (applyTransaction ctx account t) := by
  have settles : OnlyRaises P (settleTransaction ctx account t) := by
    unfold settleTransaction
    simp only
    split
    · exact .ok _
    · exact .guard (errors.refusal _ (by simp [cashRefusals])) fun _ => .ok _
    · exact changes.bind fun _ _ => .ok _
    · exact changes.bind fun _ _ => .ok _
    · exact .error errors.assertionError
  rw [applyTransaction, validateTransaction_eq_ok.mpr valid, Checked.ok_bind]
  exact settles.bind fun _ _ => .guard (errors.refusal _ (by simp [cashRefusals])) fun _ => .ok _

/-- The inner loop raises what the cash and the positions of an account can be blamed for. -/
theorem replayThrough_onlyRaises (errors : OfReplayErrors P) {ctx : Context}
    (changes : ∀ positions t, OnlyRaises P (applyPositionChange ctx positions t)) (day : Date)
    {remaining : List Transaction} (checked : ∀ t ∈ remaining, t.Valid ∧ t.occurredAt.astimezoneUtc.isSome)
    (account : Account) (pending : ℚ) : OnlyRaises P (replayThrough ctx day account pending remaining) := by
  induction remaining generalizing account pending with
  | nil => exact .ok _
  | cons t rest ih =>
    obtain ⟨⟨valid, convertible⟩, tail⟩ := List.forall_mem_cons.mp checked
    rw [replayThrough, transactionDate_eq_ok.mpr ⟨convertible, rfl⟩, Checked.ok_bind]
    split
    · exact .ok _
    · exact (applyTransaction_onlyRaises errors valid (changes _ t)).bind fun next _ => ih tail _ _

end Replays

section
variable {P : Error → Prop} (errors : OfValuationErrors P)
include errors

theorem OfValuationErrors.replay : OfReplayErrors P where
  assertionError := errors.assertionError
  refusal message listed := by
    have whole := errors.refusal message (by revert message; decide) ""
    rwa [String.append_empty] at whole

theorem OfValuationErrors.message {message : String} (listed : message ∈ valuationRefusals) :
    P (.invalidPortfolioValuation message) := by
  have whole := errors.refusal message listed ""
  rwa [String.append_empty] at whole

theorem divide_onlyRaises (ctx : Context) (x y : ℚ) : OnlyRaises P (divide ctx x y) :=
  .guard errors.divisionByZero fun _ => .ok _

theorem assetValues_onlyRaises (ctx : Context) (positions latestPrices : Dict String ℚ) :
    OnlyRaises P (assetValues ctx positions latestPrices) := by
  refine .mapM fun entry _ => ?_
  simp only
  split
  · exact .ok _
  · exact .error (errors.keyError _)

section Summary
variable {F : Type} [FloatArithmetic F]

theorem cashFlowAdjustedReturns_onlyRaises (ctx : Context) (points : List PortfolioValuePoint) :
    OnlyRaises P (cashFlowAdjustedReturns (F := F) ctx points) := by
  refine .mapM fun _ _ => ?_
  refine .guard (errors.message (by simp [valuationRefusals])) fun _ => ?_
  refine .guard (errors.message (by simp [valuationRefusals])) fun _ => ?_
  exact .bind (divide_onlyRaises errors _ _ _) fun _ _ => .ok _

theorem summarize_onlyRaises (ctx : Context) (final : ReplayState) : OnlyRaises P (summarize (F := F) ctx final) := by
  unfold summarize
  split
  · exact .error (errors.message (by simp [valuationRefusals]))
  · simp only
    split
    · exact .error (errors.refusal _ (by simp [valuationRefusals]) _)
    · refine .bind (assetValues_onlyRaises errors _ _ _) fun _ _ => .bind (.mapM fun _ _ => ?_) fun _ _ => ?_
      · exact .bind (divide_onlyRaises errors _ _ _) fun _ _ => .ok _
      · exact .bind (cashFlowAdjustedReturns_onlyRaises errors _ _) fun _ _ => .ok _

end Summary

variable [UnicodeDatabase]

theorem visitDate_onlyRaises {ctx : Context} (prices : Dict String (Dict Date ℚ)) {state : ReplayState} {day : Date}
    (replay : OnlyRaises P (replayThrough ctx day state.account state.pendingExternalFlow state.remaining)) :
    OnlyRaises P (visitDate ctx prices state day) := by
  refine replay.bind fun _ _ => ?_
  simp only
  split
  · exact .ok _
  · refine .bind (assetValues_onlyRaises errors _ _ _) fun _ _ => ?_
    split
    · exact .ok _
    · exact .ok _

/-- What a valuation raises is a matter of the symbols, the prices and the loop. -/
theorem buildPortfolioValuation_onlyRaises {F : Type} [FloatArithmetic F] {ctx : Context}
    {transactions : List Transaction} {priceBarsBySymbol : Dict String (List PriceBar)} {startDate endDate : Date}
    (symbols : startDate ≤ endDate → OnlyRaises P (requiredPriceSymbols ctx transactions startDate endDate))
    (validated : ∀ symbols, requiredPriceSymbols ctx transactions startDate endDate = .ok symbols →
      OnlyRaises P (validatedPrices symbols priceBarsBySymbol startDate endDate))
    (loop : ∀ symbols prices ordered, validatedPrices symbols priceBarsBySymbol startDate endDate = .ok prices →
      orderedTransactions transactions endDate = .ok ordered →
      OnlyRaises P ((sortedSet (prices.entries.flatMap fun entry => entry.2.keys)).foldlM (visitDate ctx prices)
        { remaining := ordered })) :
    OnlyRaises P (buildPortfolioValuation (F := F) ctx transactions priceBarsBySymbol startDate endDate) := by
  refine .bind (.guard (errors.message (by simp [valuationRefusals])) fun _ => .ok _) fun _ validRange => ?_
  have range : startDate ≤ endDate := not_lt.mp (Checked.guard_eq_ok.mp validRange).1
  refine .bind (symbols range) fun symbols required => ?_
  obtain ⟨_, _, sorts⟩ := Checked.bind_eq_ok.mp required
  obtain ⟨ordered, sorted, _⟩ := Checked.bind_eq_ok.mp sorts
  refine .guard (errors.message (by simp [valuationRefusals])) fun _ => ?_
  refine .bind (validated symbols required) fun prices priced => ?_
  refine .guard (errors.message (by simp [valuationRefusals])) fun _ => ?_
  rw [sorted, Checked.ok_bind]
  exact .bind (loop symbols prices ordered priced sorted) fun final _ => summarize_onlyRaises errors ctx final

end
end LedgerLens

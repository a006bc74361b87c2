import Mathlib.Data.String.Basic
import LedgerLens.Models
import LedgerLens.Library.Checked
import LedgerLens.Library.Dict

namespace LedgerLens
open Decimal (Context)
variable [UnicodeDatabase]

/-- `_require_positive_finite` -/
def requirePositiveFinite (value : Option Decimal) (fieldName : String) : Except Error Unit :=
  match value with
  | none => .error (.invalidTransaction s!"{fieldName} must be finite and positive")
  | some value =>
    if ¬ value.isFinite ∨ value.value ≤ 0 then
      .error (.invalidTransaction s!"{fieldName} must be finite and positive")
    else .ok ()

/-- `_require_non_negative_finite` -/
def requireNonNegativeFinite (value : Decimal) (fieldName : String) : Except Error Unit :=
  if ¬ value.isFinite ∨ value.value < 0 then
    .error (.invalidTransaction s!"{fieldName} must be finite and non-negative")
  else .ok ()

/-- The part of `validate_transaction` that BUY and SELL share. -/
def validateTrade (transaction : Transaction) : Except Error Unit :=
  match transaction.symbol with
  | none => .error (.invalidTransaction "BUY and SELL require symbol")
  | some symbol =>
    if Text.strip symbol = "" then .error (.invalidTransaction "BUY and SELL require symbol")
    else if symbol ≠ Text.upper (Text.strip symbol) then
      .error (.invalidTransaction "symbol must be normalized to uppercase")
    else do
      requirePositiveFinite transaction.quantity "quantity"
      requirePositiveFinite transaction.unitPrice "unit_price"
      if transaction.cashAmount.isSome then
        .error (.invalidTransaction "BUY and SELL must not include cash_amount")
      else .ok ()

/-- The part of `validate_transaction` that DEPOSIT and WITHDRAWAL share. -/
def validateTransfer (transaction : Transaction) : Except Error Unit :=
  if transaction.symbol.isSome ∨ transaction.quantity.isSome ∨ transaction.unitPrice.isSome then
    .error (.invalidTransaction "DEPOSIT and WITHDRAWAL only accept cash_amount")
  else requirePositiveFinite transaction.cashAmount "cash_amount"

def validateTransaction (transaction : Transaction) : Except Error Unit :=
  if Text.strip transaction.externalId = "" then
    .error (.invalidTransaction "external_id must not be blank")
  else if ¬ transaction.occurredAt.isAware then
    .error (.invalidTransaction "occurred_at must include a timezone")
  else if transaction.createdAt.any fun createdAt => ¬ createdAt.isAware then
    .error (.invalidTransaction "created_at must include a timezone")
  else do
    requireNonNegativeFinite transaction.fees "fees"
    match transaction.transactionType with
    | .buy | .sell => validateTrade transaction
    | .deposit | .withdrawal => validateTransfer transaction

/-- `astimezone(UTC)`, which raises outside years 1 to 9999. -/
def astimezoneUtc (time : DateTime) : Except Error DateTime :=
  match time.astimezoneUtc with
  | some utc => .ok utc
  | none => .error .overflowError

abbrev LedgerKey := Int ×ₗ Int ×ₗ UUID

/-- `_ledger_order`: the UTC time of the event, then the time it was recorded, then the id. -/
def ledgerOrder (transaction : Transaction) : Except Error LedgerKey := do
  let createdAt ← match transaction.createdAt with
    | some createdAt => pure createdAt
    | none => astimezoneUtc transaction.occurredAt
  let occurredAt ← astimezoneUtc transaction.occurredAt
  return toLex (occurredAt.instant, toLex (createdAt.instant, transaction.id))

/-- One step of a position replay; `exceeds` is the exception for a SELL above the position. -/
def changePosition (ctx : Context) (exceeds : String → Error) (positions : Dict String ℚ)
    (transaction : Transaction) : Except Error (Dict String ℚ) :=
  if transaction.transactionType ≠ .buy ∧ transaction.transactionType ≠ .sell then .ok positions
  else match transaction.symbol, transaction.quantity with
    | some symbol, some quantity =>
      let current := positions.getD symbol 0
      if transaction.transactionType = .buy then
        .ok (positions.set symbol (ctx.add current quantity.value))
      else if ctx.sub current quantity.value < 0 then
        .error (exceeds s!"SELL exceeds available position for {symbol}")
      else .ok (positions.set symbol (ctx.sub current quantity.value))
    | _, _ => .error .assertionError

def derivePositions (ctx : Context) (transactions : List Transaction) : Except Error (List Position) := do
  transactions.forM validateTransaction
  let ordered ← Checked.sortOnM ledgerOrder transactions
  let quantities ← ordered.foldlM (changePosition ctx .invalidTransaction) Dict.empty
  return ((StableSort.sortOn Prod.fst quantities.entries).filter fun entry => entry.2 ≠ 0).map
    fun entry => ⟨entry.1, entry.2⟩

end LedgerLens

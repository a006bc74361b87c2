import LedgerLens.Holdings

namespace LedgerLens

structure NewTransaction where
  externalId : String
  transactionType : TransactionType
  occurredAt : DateTime
  symbol : Option String := none
  quantity : Option Decimal := none
  unitPrice : Option Decimal := none
  cashAmount : Option Decimal := none
  fees : Decimal := .finite false 0 0
  deriving DecidableEq

/-- What `id_factory` and `clock` return for one transaction; the clock carries a time zone. -/
structure Fresh where
  id : UUID
  now : DateTime
  aware : now.isAware

def quantityQuantum : Decimal := .finite false 1 (-12)
def moneyQuantum : Decimal := .finite false 1 (-8)

/-- The precision of the default decimal context. -/
def defaultPrecision : Nat := 28

/-- `_quantize_exact` -/
def quantizeExact (value : Option Decimal) (quantum : Decimal) (fieldName : String) :
    Except Error (Option Decimal) :=
  match value with
  | none => .ok none
  | some value =>
    if ¬ value.isFinite then .ok (some value)
    else match value.quantize defaultPrecision quantum with
      | none => .error (.invalidTransaction s!"{fieldName} exceeds supported precision")
      | some normalized =>
        if ¬ normalized.numEq value then .error (.invalidTransaction s!"{fieldName} exceeds supported scale")
        else .ok (some normalized)

/-- Python's `x or y` on an optional number. -/
def orElseFalsy (value : Option Decimal) (fallback : Decimal) : Decimal :=
  match value with
  | some value => if value.truthy then value else fallback
  | none => fallback

variable [UnicodeDatabase]

/-- `_build_transaction` -/
def buildTransaction (portfolioId : UUID) (newTransaction : NewTransaction) (transactionId : UUID)
    (createdAt : DateTime) : Except Error Transaction := do
  let normalizedSymbol := newTransaction.symbol.map fun symbol => Text.upper (Text.strip symbol)
  let occurredAt ←
    (if newTransaction.occurredAt.isAware then astimezoneUtc newTransaction.occurredAt
    else pure newTransaction.occurredAt)
  let quantity ← quantizeExact newTransaction.quantity quantityQuantum "quantity"
  let unitPrice ← quantizeExact newTransaction.unitPrice moneyQuantum "unit_price"
  let cashAmount ← quantizeExact newTransaction.cashAmount moneyQuantum "cash_amount"
  let fees ← quantizeExact (some newTransaction.fees) moneyQuantum "fees"
  return {
    id := transactionId
    portfolioId := portfolioId
    externalId := Text.strip newTransaction.externalId
    transactionType := newTransaction.transactionType
    occurredAt := occurredAt
    createdAt := some createdAt
    symbol := normalizedSymbol
    quantity := quantity
    unitPrice := unitPrice
    cashAmount := cashAmount
    fees := orElseFalsy fees (.finite false 0 (-8)) }

/-- Equality of optional numbers as Python compares them. -/
def optionNumEq : Option Decimal → Option Decimal → Bool
  | none, none => true
  | some left, some right => left.numEq right
  | _, _ => false

/-- Equality of points in time as Python compares them: a naive time never equals an aware one. -/
def sameTime (left right : DateTime) : Bool :=
  left.isAware = right.isAware ∧ left.instant = right.instant

/-- `_same_transaction_payload` -/
def sameTransactionPayload (left right : Transaction) : Bool :=
  left.portfolioId = right.portfolioId ∧
  left.externalId = right.externalId ∧
  left.transactionType = right.transactionType ∧
  sameTime left.occurredAt right.occurredAt ∧
  left.symbol = right.symbol ∧
  optionNumEq left.quantity right.quantity ∧
  optionNumEq left.unitPrice right.unitPrice ∧
  optionNumEq left.cashAmount right.cashAmount ∧
  left.fees.numEq right.fees

end LedgerLens

import LedgerLens.Holdings
import LedgerLens.Library.SqlTypes

namespace LedgerLens

def TransactionType.value : TransactionType → String
  | .buy => "BUY"
  | .sell => "SELL"
  | .deposit => "DEPOSIT"
  | .withdrawal => "WITHDRAWAL"

/-- The constructor of the enumeration. -/
def TransactionType.ofValue (value : String) : Option TransactionType :=
  [TransactionType.buy, .sell, .deposit, .withdrawal].find? fun transactionType => transactionType.value = value

def UUID.str (id : UUID) : String :=
  let digits := Nat.toDigits 16 id.int
  let hex := List.replicate (32 - digits.length) '0' ++ digits
  let part (first last : Nat) := String.ofList ((hex.take last).drop first)
  part 0 8 ++ "-" ++ part 8 12 ++ "-" ++ part 12 16 ++ "-" ++ part 16 20 ++ "-" ++ part 20 32

/-- What the database or its driver raises, and what the repository raises on its own. -/
inductive DatabaseError where
  | dataError (column : String)
  | checkViolation (constraint : String)
  | uniqueViolation (constraint : String)
  | foreignKeyViolation (constraint : String)
  | runtimeError (message : String)
  | valueError (message : String)
  deriving DecidableEq

structure AssetRecord where
  id : UUID
  symbol : String
  deriving DecidableEq

structure TransactionRecord where
  id : UUID
  portfolioId : UUID
  assetId : Option UUID
  externalId : String
  transactionType : String
  occurredAt : DateTime
  quantity : Option Decimal
  unitPrice : Option Decimal
  cashAmount : Option Decimal
  fees : Decimal
  createdAt : DateTime
  deriving DecidableEq

def quantityColumn : Sql.Numeric := ⟨28, 12⟩
def moneyColumn : Sql.Numeric := ⟨20, 8⟩

/-- A value for a column, or the error that its type does not hold it. -/
def columnValue {α : Type} (column : String) : Option α → Except DatabaseError α
  | some value => .ok value
  | none => .error (.dataError column)

def nullableValue {α : Type} (column : String) (store : α → Option α) : Option α → Except DatabaseError (Option α)
  | some value => some <$> columnValue column (store value)
  | none => .ok none

namespace TransactionRecord
variable (record : TransactionRecord)

/-- The row as the types of the columns hold it. -/
def inColumns : Except DatabaseError TransactionRecord := do
  let externalId ← columnValue "external_id" (Sql.varchar 100 record.externalId)
  let transactionType ← columnValue "transaction_type" (Sql.varchar 16 record.transactionType)
  let occurredAt ← columnValue "occurred_at" (Sql.timestamptz record.occurredAt)
  let quantity ← nullableValue "quantity" quantityColumn.store record.quantity
  let unitPrice ← nullableValue "unit_price" moneyColumn.store record.unitPrice
  let cashAmount ← nullableValue "cash_amount" moneyColumn.store record.cashAmount
  let fees ← columnValue "fees" (moneyColumn.store record.fees)
  let createdAt ← columnValue "created_at" (Sql.timestamptz record.createdAt)
  return { record with
    externalId := externalId
    transactionType := transactionType
    occurredAt := occurredAt
    quantity := quantity
    unitPrice := unitPrice
    cashAmount := cashAmount
    fees := fees
    createdAt := createdAt }

def payloadMatchesType : Bool :=
  (record.transactionType ∈ ["BUY", "SELL"] ∧ record.assetId.isSome ∧ record.quantity.isSome ∧
    record.unitPrice.isSome ∧ record.cashAmount.isNone) ∨
  (record.transactionType ∈ ["DEPOSIT", "WITHDRAWAL"] ∧ record.assetId.isNone ∧ record.quantity.isNone ∧
    record.unitPrice.isNone ∧ record.cashAmount.isSome)

/-- The `CHECK` constraints under the names that the naming convention gives them, in the order of these
names, in which they are looked at. -/
def checks : List (String × Bool) := [
  ("ck_transactions_cash_amount_positive", record.cashAmount.all Sql.Numeric.positive),
  ("ck_transactions_fees_non_negative", Sql.Numeric.nonNegative record.fees),
  ("ck_transactions_payload_matches_type", record.payloadMatchesType),
  ("ck_transactions_quantity_positive", record.quantity.all Sql.Numeric.positive),
  ("ck_transactions_unit_price_positive", record.unitPrice.all Sql.Numeric.positive)]

/-- The columns that `list_for_portfolio` orders by. -/
def orderKey : LedgerKey := toLex (record.occurredAt.instant, toLex (record.createdAt.instant, record.id))

end TransactionRecord

/-- The rows that the repository works on; of the portfolios it only meets the keys. -/
structure Tables where
  portfolios : List UUID
  assets : List AssetRecord := []
  transactions : List TransactionRecord := []
  deriving DecidableEq

namespace Tables
variable (tables : Tables)

/-- The statement of `_asset_id` that does nothing where the symbol is known, and returns the id where it
is not. -/
def insertAsset (newId : UUID) (symbol : String) : Except DatabaseError (Option UUID × Tables) := do
  let symbol ← columnValue "symbol" (Sql.varchar 32 symbol)
  if tables.assets.any fun asset => asset.symbol = symbol then return (none, tables)
  else if tables.assets.any fun asset => asset.id = newId then .error (.uniqueViolation "pk_assets")
  else return (some newId, { tables with assets := tables.assets ++ [⟨newId, symbol⟩] })

def insertTransaction (record : TransactionRecord) : Except DatabaseError Tables := do
  let record ← record.inColumns
  match record.checks.find? fun check => ¬ check.2 with
  | some check => .error (.checkViolation check.1)
  | none =>
    if tables.transactions.any fun other => other.id = record.id then .error (.uniqueViolation "pk_transactions")
    else if tables.transactions.any fun other =>
        other.portfolioId = record.portfolioId ∧ other.externalId = record.externalId then
      .error (.uniqueViolation "uq_transactions_portfolio_external")
    else if record.assetId.any fun id => tables.assets.all fun asset => asset.id ≠ id then
      .error (.foreignKeyViolation "fk_transactions_asset_id_assets")
    else if record.portfolioId ∉ tables.portfolios then
      .error (.foreignKeyViolation "fk_transactions_portfolio_id_portfolios")
    else return { tables with transactions := tables.transactions ++ [record] }

end Tables

/-- What `uuid4` and the clock of the database give to one call of `add`. -/
structure Draws where
  assetId : UUID
  now : DateTime

namespace PostgresTransactionRepository
variable (tables : Tables)

/-- `_asset_id` -/
def assetId (newId : UUID) : Option String → Except DatabaseError (Option UUID × Tables)
  | none => .ok (none, tables)
  | some symbol => do
    match ← tables.insertAsset newId symbol with
    | (some insertedId, tables) => return (some insertedId, tables)
    | (none, tables) =>
      match tables.assets.find? fun asset => asset.symbol = symbol with
      | none => .error (.runtimeError s!"asset upsert failed for {symbol}")
      | some existing => return (some existing.id, tables)

/-- The record that `add` hands to the session. A time of recording that is missing is left to the default
of the column. -/
def record (transaction : Transaction) (assetId : Option UUID) (now : DateTime) : TransactionRecord where
  id := transaction.id
  portfolioId := transaction.portfolioId
  assetId := assetId
  externalId := transaction.externalId
  transactionType := transaction.transactionType.value
  occurredAt := transaction.occurredAt
  quantity := transaction.quantity
  unitPrice := transaction.unitPrice
  cashAmount := transaction.cashAmount
  fees := transaction.fees
  createdAt := transaction.createdAt.getD now

def add (draws : Draws) (transaction : Transaction) : Except DatabaseError Tables := do
  let (assetId, tables) ← assetId tables draws.assetId transaction.symbol
  tables.insertTransaction (record transaction assetId draws.now)

/-- The symbol of the asset that a row refers to. -/
def symbolOf : Option UUID → Except DatabaseError (Option String)
  | none => .ok none
  | some assetId =>
    match tables.assets.find? fun asset => asset.id = assetId with
    | none =>
      let text := assetId.str
      .error (.runtimeError s!"asset {text} was not found")
    | some asset => .ok (some asset.symbol)

/-- `_to_domain` -/
def toDomain (record : TransactionRecord) : Except DatabaseError Transaction := do
  let symbol ← symbolOf tables record.assetId
  match TransactionType.ofValue record.transactionType with
  | none =>
    let text := record.transactionType
    .error (.valueError s!"'{text}' is not a valid TransactionType")
  | some transactionType =>
    return {
      id := record.id
      portfolioId := record.portfolioId
      externalId := record.externalId
      transactionType := transactionType
      occurredAt := record.occurredAt
      createdAt := some record.createdAt
      symbol := symbol
      quantity := record.quantity
      unitPrice := record.unitPrice
      cashAmount := record.cashAmount
      fees := record.fees }

def getByExternalId (portfolioId : UUID) (externalId : String) : Except DatabaseError (Option Transaction) := do
  let externalId ← columnValue "external_id" (Sql.text externalId)
  match tables.transactions.find? fun record => record.portfolioId = portfolioId ∧ record.externalId = externalId with
  | none => return none
  | some record => some <$> toDomain tables record

def listForPortfolio (portfolioId : UUID) : Except DatabaseError (List Transaction) :=
  let records := tables.transactions.filter fun record => record.portfolioId = portfolioId
  (StableSort.sortOn TransactionRecord.orderKey records).mapM (toDomain tables)

end PostgresTransactionRepository
end LedgerLens

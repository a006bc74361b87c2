import LedgerLens.ImportService
import LedgerLens.Library.Csv

namespace LedgerLens

def maxCsvBytes : Nat := 1000000
def maxCsvRows : Nat := 500
def requiredHeaders : List String := ["external_id", "transaction_type", "occurred_at"]
def optionalHeaders : List String := ["symbol", "quantity", "unit_price", "cash_amount", "fees"]
def allowedHeaders : List String := requiredHeaders ++ optionalHeaders

/-- The constraints a decimal field is declared with. -/
structure DecimalField where
  zeroAllowed : Bool
  maxDigits : Nat
  decimalPlaces : Nat

/-- How the validation library reads the text of a field, or the `None` of a blank one; a refusal is
the message it gives. -/
structure FieldParsers where
  string : (maxLength : Nat) → Option String → Except String String
  transactionType : Option String → Except String TransactionType
  datetime : Option String → Except String DateTime
  decimal : DecimalField → Option String → Except String Decimal

/-- A field declared `| None`. -/
def orNone {α : Type} (parse : Option String → Except String α) : Option String → Except String (Option α)
  | none => .ok none
  | text => some <$> parse text

namespace TransactionInput

/-- The keyword arguments of `model_validate`. -/
abbrev Payload := List (String × Option String)

/-- `occurred_at_requires_timezone` -/
def occurredAtRequiresTimezone (value : DateTime) : Except String DateTime :=
  if ¬ value.isAware then .error "Value error, occurred_at must include a timezone" else .ok value

/-- `payload_matches_transaction_type` -/
def payloadMatchesTransactionType (transaction : NewTransaction) : Except String Unit :=
  match transaction.transactionType with
  | .buy | .sell =>
    if transaction.symbol.isNone ∨ transaction.quantity.isNone ∨ transaction.unitPrice.isNone then
      .error "Value error, BUY and SELL require symbol, quantity, and unit_price"
    else if transaction.cashAmount.isSome then
      .error "Value error, BUY and SELL must not include cash_amount"
    else .ok ()
  | .deposit | .withdrawal =>
    if transaction.cashAmount.isNone then
      .error "Value error, DEPOSIT and WITHDRAWAL require cash_amount"
    else if transaction.symbol.isSome ∨ transaction.quantity.isSome ∨ transaction.unitPrice.isSome then
      .error "Value error, DEPOSIT and WITHDRAWAL only accept cash_amount and fees"
    else .ok ()

/-- A field of the model: its default when the payload leaves it out, and a required field has none. -/
def field {α : Type} (payload : Payload) (name : String) (default : Option α)
    (parse : Option String → Except String α) : Except TransactionImportIssue α :=
  match payload.lookup name, default with
  | none, some default => .ok default
  | none, none => .error ⟨"invalid_field", "Field required", some name⟩
  | some text, _ => (parse text).mapError fun message => ⟨"invalid_field", message, some name⟩

/-- The issue of a field that was refused. -/
def refusal {α : Type} : Except TransactionImportIssue α → List TransactionImportIssue
  | .error issue => [issue]
  | .ok _ => []

/-- `TransactionInput.model_validate`: every field is read, and the model as a whole is only looked at
when all of them are good. -/
def modelValidate (parsers : FieldParsers) (payload : Payload) :
    Except (List TransactionImportIssue) NewTransaction :=
  let externalId := field payload "external_id" none (parsers.string 100)
  let transactionType := field payload "transaction_type" none parsers.transactionType
  let occurredAt := field payload "occurred_at" none fun text => do
    let value ← parsers.datetime text
    occurredAtRequiresTimezone value
  let symbol := field payload "symbol" (some none) (orNone (parsers.string 32))
  let quantity := field payload "quantity" (some none) (orNone (parsers.decimal ⟨false, 28, 12⟩))
  let unitPrice := field payload "unit_price" (some none) (orNone (parsers.decimal ⟨false, 20, 8⟩))
  let cashAmount := field payload "cash_amount" (some none) (orNone (parsers.decimal ⟨false, 20, 8⟩))
  let fees := field payload "fees" (some (.finite false 0 0)) (parsers.decimal ⟨true, 20, 8⟩)
  match externalId, transactionType, occurredAt, symbol, quantity, unitPrice, cashAmount, fees with
  | .ok externalId, .ok transactionType, .ok occurredAt, .ok symbol, .ok quantity, .ok unitPrice, .ok cashAmount,
      .ok fees =>
    let transaction : NewTransaction :=
      ⟨externalId, transactionType, occurredAt, symbol, quantity, unitPrice, cashAmount, fees⟩
    match payloadMatchesTransactionType transaction with
    | .error message => .error [⟨"invalid_row", message, none⟩]
    | .ok _ => .ok transaction
  | externalId, transactionType, occurredAt, symbol, quantity, unitPrice, cashAmount, fees =>
    .error (refusal externalId ++ refusal transactionType ++ refusal occurredAt ++ refusal symbol ++
      refusal quantity ++ refusal unitPrice ++ refusal cashAmount ++ refusal fees)

end TransactionInput

/-- A row of the dictionary reader: a value for every header, `None` where the record is too short,
and the values behind the last header. -/
structure RawRow where
  values : List (String × Option String)
  extra : List String

def rawRow (headers record : List String) : RawRow where
  values := headers.zip (record.map some ++ List.replicate (headers.length - record.length) none)
  extra := record.drop headers.length

/-- `_string_value` -/
def stringValue (value : Option String) : String := (value.map Text.strip).getD ""

/-- A value that is blank counts as absent. -/
def nonBlank (value : String) : Option String := if value = "" then none else some value

/-- `_is_blank_row` -/
def isBlankRow (row : RawRow) : Bool :=
  row.values.all (fun value => stringValue value.2 = "") && row.extra.all fun item => Text.strip item = ""

/-- `_validate_headers` -/
def validateHeaders (fieldnames : List String) : Except Error (List String) :=
  if fieldnames = [] then .error (.transactionImportFormat "CSV header row is missing")
  else
    let headers := fieldnames.map Text.strip
    let missing := StableSort.sortOn id (requiredHeaders.filter fun header => header ∉ headers)
    let unexpected := StableSort.sortOn id (headers.filter fun header => header ∉ allowedHeaders)
    if "" ∈ headers then .error (.transactionImportFormat "CSV header contains a blank column")
    else if ¬ headers.Nodup then .error (.transactionImportFormat "CSV header contains duplicate columns")
    else if missing ≠ [] then
      .error (.transactionImportFormat ("CSV header is missing required columns: " ++ ", ".intercalate missing))
    else if unexpected ≠ [] then
      .error (.transactionImportFormat
        ("CSV header contains unsupported columns: " ++ ", ".intercalate unexpected))
    else .ok headers

/-- The payload of a row; blank fees are left out, so that their default applies. -/
def rowPayload (row : RawRow) : TransactionInput.Payload :=
  (row.values.map fun value => (value.1, nonBlank (stringValue value.2))).filter fun entry =>
    ¬ (entry.1 = "fees" ∧ entry.2 = none)

/-- `_parse_row` -/
def parseRow (parsers : FieldParsers) (rowNumber : Nat) (row : RawRow) : TransactionImportCandidate :=
  let externalId := nonBlank (stringValue ((row.values.lookup "external_id").getD none))
  if row.extra ≠ [] then
    { rowNumber := rowNumber, externalId := externalId, newTransaction := none,
      issues := [⟨"extra_columns", "row contains more values than the header", none⟩] }
  else match TransactionInput.modelValidate parsers (rowPayload row) with
    | .error issues => { rowNumber := rowNumber, externalId := externalId, newTransaction := none, issues := issues }
    | .ok transaction =>
      { rowNumber := rowNumber, externalId := some transaction.externalId, newTransaction := some transaction }

/-- The body of the loop over the records; the reader itself skips empty lines. -/
def consumeRecord (parsers : FieldParsers) (headers : List String)
    (candidates : List TransactionImportCandidate) (lineNum : Nat) (record : List String) :
    Except Error (List TransactionImportCandidate) :=
  if record = [] ∨ isBlankRow (rawRow headers record) then .ok candidates
  else if maxCsvRows ≤ candidates.length then
    .error (.transactionImportFormat s!"CSV document exceeds the {maxCsvRows}-row limit")
  else .ok (candidates ++ [parseRow parsers lineNum (rawRow headers record)])

/-- The part of `parse_transaction_csv` behind the decoding. A malformed header leaves the function as
the reader's own error; a malformed row is turned into a format error. -/
def parseLines (parsers : FieldParsers) (lines : List (List Char)) :
    Except Error (List TransactionImportCandidate) :=
  match Csv.nextRecord {} 0 lines with
  | .error message => .error (.csvError message)
  | .ok none => .error (.transactionImportFormat "CSV header row is missing")
  | .ok (some (fieldnames, lineNum, rest)) => do
    let headers ← validateHeaders fieldnames
    let candidates ← Csv.forRecords (fun _ => .transactionImportFormat "CSV document is malformed")
      (consumeRecord parsers headers) {} lineNum [] rest
    if candidates = [] then .error (.transactionImportFormat "CSV document has no transaction rows")
    else .ok candidates

def parseTransactionCsv (parsers : FieldParsers) : TransactionCsvParser := fun csvData =>
  if maxCsvBytes < csvData.length then
    .error (.transactionImportFormat s!"CSV document exceeds the {maxCsvBytes}-byte limit")
  else match Csv.decodeUtf8Sig csvData with
    | none => .error (.transactionImportFormat "CSV document must be UTF-8")
    | some text =>
      if '\x00' ∈ text then .error (.transactionImportFormat "CSV document contains a null byte")
      else parseLines parsers (Csv.linesFrom [] text)

end LedgerLens

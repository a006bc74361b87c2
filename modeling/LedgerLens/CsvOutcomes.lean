import LedgerLens.ImportReports

namespace LedgerLens

section Rows
variable {parsers : FieldParsers}

/-- A refused payload comes with an issue. -/
theorem modelValidate_issues {payload : TransactionInput.Payload} {issues : List TransactionImportIssue}
    (refused : TransactionInput.modelValidate parsers payload = .error issues) : issues ≠ [] := by
  have good : ∀ {α : Type} (read : Except TransactionImportIssue α), TransactionInput.refusal read = [] →
      ∃ value, read = .ok value := by
    intro α read unrefused
    cases read with
    | error issue => cases unrefused
    | ok value => exact ⟨value, rfl⟩
  unfold TransactionInput.modelValidate at refused
  simp only at refused
  split at refused
  · split at refused
    · cases refused
      exact List.cons_ne_nil _ _
    · cases refused
  · next incomplete =>
    cases refused
    intro unrefused
    simp only [List.append_eq_nil_iff] at unrefused
    obtain ⟨⟨⟨⟨⟨⟨⟨externalId, transactionType⟩, occurredAt⟩, symbol⟩, quantity⟩, unitPrice⟩, cashAmount⟩, fees⟩ :=
      unrefused
    obtain ⟨_, externalId⟩ := good _ externalId
    obtain ⟨_, transactionType⟩ := good _ transactionType
    obtain ⟨_, occurredAt⟩ := good _ occurredAt
    obtain ⟨_, symbol⟩ := good _ symbol
    obtain ⟨_, quantity⟩ := good _ quantity
    obtain ⟨_, unitPrice⟩ := good _ unitPrice
    obtain ⟨_, cashAmount⟩ := good _ cashAmount
    obtain ⟨_, fees⟩ := good _ fees
    exact incomplete _ _ _ _ _ _ _ _ externalId transactionType occurredAt symbol quantity unitPrice cashAmount fees

/-- A candidate is either a transaction or a list of issues. -/
def TransactionImportCandidate.Decided (candidate : TransactionImportCandidate) : Prop :=
  candidate.newTransaction.isSome ∧ candidate.issues = [] ∨
    candidate.newTransaction = none ∧ candidate.issues ≠ []

theorem parseRow_decided (rowNumber : Nat) (row : RawRow) : (parseRow parsers rowNumber row).Decided := by
  unfold parseRow
  simp only
  split
  · exact .inr ⟨rfl, List.cons_ne_nil _ _⟩
  · split
    · next refused => exact .inr ⟨rfl, modelValidate_issues refused⟩
    · exact .inl ⟨rfl, rfl⟩

theorem parseRow_rowNumber (rowNumber : Nat) (row : RawRow) :
    (parseRow parsers rowNumber row).rowNumber = rowNumber := by
  unfold parseRow
  simp only
  split
  · rfl
  · split <;> rfl

end Rows

/-- A record the loop passes over. -/
def isBlankRecord (headers record : List String) : Bool := record = [] || isBlankRow (rawRow headers record)

/-- The records of a body that are not blank, as candidates. -/
def candidatesOf (parsers : FieldParsers) (headers : List String) (records : List (Nat × List String)) :
    List TransactionImportCandidate :=
  (records.filter fun record => ¬ isBlankRecord headers record.2).map fun record =>
    parseRow parsers record.1 (rawRow headers record.2)

theorem candidatesOf_rowNumbers (parsers : FieldParsers) (headers : List String)
    (records : List (Nat × List String)) :
    (candidatesOf parsers headers records).map TransactionImportCandidate.rowNumber =
      (records.filter fun record => ¬ isBlankRecord headers record.2).map Prod.fst := by
  rw [candidatesOf, List.map_map]
  exact List.map_congr_left fun record _ => parseRow_rowNumber record.1 _

/-- The loop over the records keeps the candidates of those that are not blank, up to the limit. -/
theorem consumeRecord_foldlM {parsers : FieldParsers} {headers : List String} {records : List (Nat × List String)}
    {start candidates : List TransactionImportCandidate} (within : start.length ≤ maxCsvRows)
    (run : records.foldlM (fun s r => consumeRecord parsers headers s r.1 r.2) start = .ok candidates) :
    candidates = start ++ candidatesOf parsers headers records ∧ candidates.length ≤ maxCsvRows := by
  induction records generalizing start with
  | nil =>
    cases Checked.pure_eq_ok.mp run
    exact ⟨(List.append_nil _).symm, within⟩
  | cons record rest ih =>
    obtain ⟨next, consumed, run⟩ := Checked.foldlM_cons_eq_ok.mp run
    unfold consumeRecord at consumed
    split at consumed
    · next blank =>
      cases consumed
      obtain ⟨rfl, short⟩ := ih within run
      refine ⟨?_, short⟩
      have skipped : isBlankRecord headers record.2 := by simpa [isBlankRecord] using blank
      simp [candidatesOf, skipped]
    · next solid =>
      obtain ⟨room, consumed⟩ := Checked.guard_eq_ok.mp consumed
      cases consumed
      have longer : (start ++ [parseRow parsers record.1 (rawRow headers record.2)]).length ≤ maxCsvRows := by
        rw [List.length_append, List.length_singleton]
        exact not_le.mp room
      obtain ⟨rfl, short⟩ := ih longer run
      refine ⟨?_, short⟩
      have kept : isBlankRecord headers record.2 = false := by simpa [isBlankRecord] using solid
      simp [candidatesOf, kept]

/-- The errors the callers of the parser expect. -/
def FormatError (raised : Error) : Prop := ∃ message, raised = .transactionImportFormat message

theorem validateHeaders_onlyRaises (fieldnames : List String) :
    Checked.OnlyRaises FormatError (validateHeaders fieldnames) := by
  unfold validateHeaders
  refine .guard ⟨_, rfl⟩ fun _ => .guard ⟨_, rfl⟩ fun _ => .guard ⟨_, rfl⟩ fun _ => ?_
  exact .guard ⟨_, rfl⟩ fun _ => .guard ⟨_, rfl⟩ fun _ => .ok _

theorem consumeRecord_onlyRaises (parsers : FieldParsers) (headers : List String)
    (candidates : List TransactionImportCandidate) (lineNum : Nat) (record : List String) :
    Checked.OnlyRaises FormatError (consumeRecord parsers headers candidates lineNum record) := by
  unfold consumeRecord
  split
  · exact .ok _
  · exact .guard ⟨_, rfl⟩ fun _ => .ok _

/-- A document that gets past the checks before the reader: the text in it. -/
def readableText (csvData : List UInt8) : Option (List Char) :=
  if maxCsvBytes < csvData.length then none
  else (Csv.decodeUtf8Sig csvData).filter fun text => '\x00' ∉ text

/-- The reader refuses the first record of the document: its header. -/
def MalformedHeader (csvData : List UInt8) : Prop :=
  ∃ text ∈ readableText csvData, ∃ message, Csv.nextRecord {} 0 (Csv.linesFrom [] text) = .error message

/-- The header of a document and the records behind it, with the number of the line each ends on. -/
def Contains (csvData : List UInt8) (headers : List String) (records : List (Nat × List String)) : Prop :=
  ∃ text ∈ readableText csvData, ∃ fieldnames lineNum rest,
    Csv.nextRecord {} 0 (Csv.linesFrom [] text) = .ok (some (fieldnames, lineNum, rest)) ∧
      validateHeaders fieldnames = .ok headers ∧ Csv.records {} lineNum rest = .ok records

/-- What a parsed document amounts to. -/
structure ParsedDocument (parsers : FieldParsers) (csvData : List UInt8) (headers : List String)
    (records : List (Nat × List String)) (candidates : List TransactionImportCandidate) : Prop where
  contents : Contains csvData headers records
  rows : candidates = candidatesOf parsers headers records
  some_row : 1 ≤ candidates.length
  few_rows : candidates.length ≤ maxCsvRows
  ascending : (candidates.map TransactionImportCandidate.rowNumber).Pairwise (· < ·)
  decided : ∀ candidate ∈ candidates, candidate.Decided

theorem parseTransactionCsv_readable (parsers : FieldParsers) {csvData : List UInt8} {text : List Char}
    (readable : readableText csvData = some text) :
    parseTransactionCsv parsers csvData = parseLines parsers (Csv.linesFrom [] text) := by
  unfold readableText at readable
  split at readable
  · cases readable
  · next short =>
    obtain ⟨decoded, clean⟩ := Option.filter_eq_some_iff.mp readable
    rw [parseTransactionCsv, if_neg short, decoded]
    exact if_neg (by simpa using clean)

theorem parseTransactionCsv_unreadable (parsers : FieldParsers) {csvData : List UInt8}
    (unreadable : readableText csvData = none) :
    ∃ message, parseTransactionCsv parsers csvData = .error (.transactionImportFormat message) := by
  unfold readableText at unreadable
  unfold parseTransactionCsv
  split
  · exact ⟨_, rfl⟩
  · next short =>
    rw [if_neg short] at unreadable
    split
    · exact ⟨_, rfl⟩
    · next decoded =>
      rw [decoded] at unreadable
      rw [if_pos (by simpa using unreadable)]
      exact ⟨_, rfl⟩

theorem parseLines_documented (parsers : FieldParsers) {csvData : List UInt8} {text : List Char}
    (readable : readableText csvData = some text)
    (header : ∀ message, Csv.nextRecord {} 0 (Csv.linesFrom [] text) ≠ .error message) :
    (∃ message, parseLines parsers (Csv.linesFrom [] text) = .error (.transactionImportFormat message)) ∨
      ∃ headers records candidates, parseLines parsers (Csv.linesFrom [] text) = .ok candidates ∧
        ParsedDocument parsers csvData headers records candidates := by
  unfold parseLines
  match first : Csv.nextRecord {} 0 (Csv.linesFrom [] text) with
  | .error message => exact absurd first (header message)
  | .ok none => exact .inl ⟨_, rfl⟩
  | .ok (some (fieldnames, lineNum, rest)) =>
    simp only
    have raises := validateHeaders_onlyRaises fieldnames
    cases validated : validateHeaders fieldnames with
    | error raised =>
      obtain ⟨message, rfl⟩ := raises raised validated
      exact .inl ⟨message, rfl⟩
    | ok headers =>
      rw [Checked.ok_bind]
      cases body : Csv.forRecords (fun _ => Error.transactionImportFormat "CSV document is malformed")
          (consumeRecord parsers headers) {} lineNum [] rest with
      | error raised =>
        obtain ⟨message, rfl⟩ := Csv.forRecords_onlyRaises (P := FormatError) (fun _ => ⟨_, rfl⟩)
          (consumeRecord_onlyRaises parsers headers) rest {} lineNum [] raised body
        exact .inl ⟨message, rfl⟩
      | ok candidates =>
        rw [Checked.ok_bind]
        by_cases empty : candidates = []
        · rw [if_pos empty]
          exact .inl ⟨_, rfl⟩
        · rw [if_neg empty]
          obtain ⟨records, listed, folded⟩ := Csv.forRecords_eq_ok body
          obtain ⟨rows, few⟩ := consumeRecord_foldlM (Nat.zero_le _) folded
          rw [List.nil_append] at rows
          have contents : Contains csvData headers records :=
            ⟨text, readable, fieldnames, lineNum, rest, first, validated, listed⟩
          refine .inr ⟨headers, records, candidates, rfl, contents, rows, List.length_pos_iff.mpr empty, few, ?_, ?_⟩
          · rw [rows, candidatesOf_rowNumbers]
            exact (Csv.records_ascending listed).1.sublist (List.filter_sublist.map Prod.fst)
          · intro candidate member
            rw [rows] at member
            obtain ⟨record, _, rfl⟩ := List.mem_map.mp member
            exact parseRow_decided _ _

/-- The parser raises format errors only, or returns the candidates of the document, exactly when the
reader can read the header. -/
theorem csv_outcomes_iff (parsers : FieldParsers) (csvData : List UInt8) :
    ((∃ message, parseTransactionCsv parsers csvData = .error (.transactionImportFormat message)) ∨
        ∃ headers records candidates, parseTransactionCsv parsers csvData = .ok candidates ∧
          ParsedDocument parsers csvData headers records candidates) ↔
      ¬ MalformedHeader csvData := by
  constructor
  · rintro documented ⟨text, readable, message, malformed⟩
    have escapes : parseTransactionCsv parsers csvData = .error (.csvError message) := by
      rw [parseTransactionCsv_readable parsers readable, parseLines, malformed]
    rcases documented with ⟨_, format⟩ | ⟨_, _, _, parsed, _⟩
    · cases escapes.symm.trans format
    · cases escapes.symm.trans parsed
  · intro wellFormed
    cases readable : readableText csvData with
    | none => exact .inl (parseTransactionCsv_unreadable parsers readable)
    | some text =>
      rw [parseTransactionCsv_readable parsers readable]
      exact parseLines_documented parsers readable fun message malformed =>
        wellFormed ⟨text, readable, message, malformed⟩

/-- A quotation mark that is opened in the header and never closed. -/
theorem open_quote_escapes :
    parseTransactionCsv plainParsers (asciiBytes "\"external_id,transaction_type,occurred_at\n") =
      .error (.csvError "unexpected end of data") := by
  decide +kernel

end LedgerLens

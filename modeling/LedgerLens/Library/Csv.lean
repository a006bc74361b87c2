import Mathlib.Data.List.Basic
import LedgerLens.Library.Checked

/-! The strict reader of comma-separated values, character by character, and its UTF-8 input. -/

namespace Csv

/-- Decode UTF-8 from inside a character: `need` bytes are missing, the next one lies between `low`
and `high`, and `code` holds the bits read so far. -/
def decodeFrom (need low high code : Nat) : List UInt8 → Option (List Char)
  | [] => if need = 0 then some [] else none
  | byte :: rest =>
    let b := byte.toNat
    if need = 0 then
      if b < 0x80 then (decodeFrom 0 0 0 0 rest).map (Char.ofNat b :: ·)
      else if 0xc2 ≤ b ∧ b ≤ 0xdf then decodeFrom 1 0x80 0xbf (b - 0xc0) rest
      else if b = 0xe0 then decodeFrom 2 0xa0 0xbf 0 rest
      else if b = 0xed then decodeFrom 2 0x80 0x9f 0xd rest
      else if 0xe1 ≤ b ∧ b ≤ 0xef then decodeFrom 2 0x80 0xbf (b - 0xe0) rest
      else if b = 0xf0 then decodeFrom 3 0x90 0xbf 0 rest
      else if 0xf1 ≤ b ∧ b ≤ 0xf3 then decodeFrom 3 0x80 0xbf (b - 0xf0) rest
      else if b = 0xf4 then decodeFrom 3 0x80 0x8f 4 rest
      else none
    else if low ≤ b ∧ b ≤ high then
      let code := code * 64 + (b - 0x80)
      if need = 1 then (decodeFrom 0 0 0 0 rest).map (Char.ofNat code :: ·)
      else decodeFrom (need - 1) 0x80 0xbf code rest
    else none

/-- The codec `utf-8-sig`: a byte order mark in front is dropped. -/
def decodeUtf8Sig (bytes : List UInt8) : Option (List Char) :=
  decodeFrom 0 0 0 0 (if bytes.take 3 = [0xef, 0xbb, 0xbf] then bytes.drop 3 else bytes)

/-- Lines with their terminators, which are a line feed, a carriage return, or both. -/
def linesFrom (line : List Char) : List Char → List (List Char)
  | [] => if line = [] then [] else [line.reverse]
  | '\r' :: '\n' :: rest => ('\n' :: '\r' :: line).reverse :: linesFrom [] rest
  | c :: rest =>
    if c = '\n' ∨ c = '\r' then (c :: line).reverse :: linesFrom [] rest else linesFrom (c :: line) rest

inductive State where
  | startRecord
  | startField
  | inField
  | inQuotedField
  | quoteInQuotedField
  | eatCrnl
  deriving DecidableEq

/-- What the reader keeps between two characters; the field is held in reverse. -/
structure Reader where
  state : State := .startRecord
  fields : List String := []
  field : List Char := []

def fieldSizeLimit : Nat := 131072

def Reader.saveField (reader : Reader) (state : State) : Reader :=
  ⟨state, reader.fields ++ [String.ofList reader.field.reverse], []⟩

def Reader.addChar (reader : Reader) (state : State) (c : Char) : Except String Reader :=
  if fieldSizeLimit ≤ reader.field.length then .error s!"field larger than field limit ({fieldSizeLimit})"
  else .ok { reader with state := state, field := c :: reader.field }

def Reader.startField (reader : Reader) (c : Char) : Except String Reader :=
  if c = '\n' ∨ c = '\r' then .ok (reader.saveField .eatCrnl)
  else if c = '"' then .ok { reader with state := .inQuotedField }
  else if c = ',' then .ok (reader.saveField .startField)
  else reader.addChar .inField c

/-- One character of a line. -/
def Reader.processChar (reader : Reader) (c : Char) : Except String Reader :=
  match reader.state with
  | .startRecord =>
    if c = '\n' ∨ c = '\r' then .ok { reader with state := .eatCrnl } else reader.startField c
  | .startField => reader.startField c
  | .inField =>
    if c = '\n' ∨ c = '\r' then .ok (reader.saveField .eatCrnl)
    else if c = ',' then .ok (reader.saveField .startField)
    else reader.addChar .inField c
  | .inQuotedField =>
    if c = '"' then .ok { reader with state := .quoteInQuotedField } else reader.addChar .inQuotedField c
  | .quoteInQuotedField =>
    if c = '"' then reader.addChar .inQuotedField c
    else if c = ',' then .ok (reader.saveField .startField)
    else if c = '\n' ∨ c = '\r' then .ok (reader.saveField .eatCrnl)
    else .error "',' expected after '\"'"
  | .eatCrnl =>
    if c = '\n' ∨ c = '\r' then .ok reader
    else .error "new-line character seen in unquoted field - do you need to open the file with newline=''?"

/-- The end of a line. -/
def Reader.endLine (reader : Reader) : Reader :=
  match reader.state with
  | .startRecord | .inQuotedField => reader
  | .startField | .inField | .quoteInQuotedField => reader.saveField .startRecord
  | .eatCrnl => { reader with state := .startRecord }

def Reader.readLine (reader : Reader) (line : List Char) : Except String Reader := do
  let reader ← line.foldlM Reader.processChar reader
  return reader.endLine

/-- The end of the input: a record that is still open is an error. -/
def Reader.finish (reader : Reader) : Except String Unit :=
  if reader.field ≠ [] ∨ reader.state = .inQuotedField then .error "unexpected end of data" else .ok ()

/-- The next record with the number of lines it took and the lines after it; a record ends with the
line that brings the reader back to its start. -/
def nextRecord (reader : Reader) (taken : Nat) :
    List (List Char) → Except String (Option (List String × Nat × List (List Char)))
  | [] => do
    reader.finish
    return none
  | line :: rest => do
    let reader ← reader.readLine line
    if reader.state = .startRecord then return some (reader.fields, taken + 1, rest)
    else nextRecord reader (taken + 1) rest

/-- Hand every record, with the number of its last line, to a consumer that can raise too. -/
def forRecords {ε σ : Type} (malformed : String → ε) (consume : σ → Nat → List String → Except ε σ)
    (reader : Reader) (lineNum : Nat) (s : σ) : List (List Char) → Except ε σ
  | [] =>
    match reader.finish with
    | .error message => .error (malformed message)
    | .ok _ => .ok s
  | line :: rest =>
    match reader.readLine line with
    | .error message => .error (malformed message)
    | .ok reader =>
      if reader.state = .startRecord then do
        let s ← consume s (lineNum + 1) reader.fields
        forRecords malformed consume {} (lineNum + 1) s rest
      else forRecords malformed consume reader (lineNum + 1) s rest

/-- All records up to the end, each with the number of its last line. -/
def records (reader : Reader) (lineNum : Nat) : List (List Char) → Except String (List (Nat × List String))
  | [] => do
    reader.finish
    return []
  | line :: rest => do
    let reader ← reader.readLine line
    if reader.state = .startRecord then
      let later ← records {} (lineNum + 1) rest
      return (lineNum + 1, reader.fields) :: later
    else records reader (lineNum + 1) rest

section Records
variable {ε σ : Type} {malformed : String → ε} {consume : σ → Nat → List String → Except ε σ}

/-- A traversal that returns has folded over all the records. -/
theorem forRecords_eq_ok {lines : List (List Char)} {reader : Reader} {lineNum : Nat} {s final : σ}
    (run : forRecords malformed consume reader lineNum s lines = .ok final) :
    ∃ rs, records reader lineNum lines = .ok rs ∧ rs.foldlM (fun s r => consume s r.1 r.2) s = .ok final := by
  induction lines generalizing reader lineNum s with
  | nil =>
    rw [forRecords] at run
    split at run
    · cases run
    · next finished =>
      cases run
      exact ⟨[], by rw [records, finished]; rfl, rfl⟩
  | cons line rest ih =>
    rw [forRecords] at run
    split at run
    · cases run
    · next next_reader read =>
      split at run
      · next ended =>
        obtain ⟨middle, consumed, run⟩ := Checked.bind_eq_ok.mp run
        obtain ⟨rs, listed, folded⟩ := ih run
        refine ⟨(lineNum + 1, next_reader.fields) :: rs, ?_,
          Checked.foldlM_cons_eq_ok.mpr ⟨middle, consumed, folded⟩⟩
        rw [records, read, Checked.ok_bind, if_pos ended, listed]
        rfl
      · next inside =>
        obtain ⟨rs, listed, folded⟩ := ih run
        exact ⟨rs, by rw [records, read, Checked.ok_bind, if_neg inside, listed], folded⟩

/-- What a traversal raises is a malformed record or comes from the consumer. -/
theorem forRecords_onlyRaises {P : ε → Prop} (format : ∀ message, P (malformed message))
    (consumer : ∀ s lineNum record, Checked.OnlyRaises P (consume s lineNum record)) (lines : List (List Char))
    (reader : Reader) (lineNum : Nat) (s : σ) :
    Checked.OnlyRaises P (forRecords malformed consume reader lineNum s lines) := by
  induction lines generalizing reader lineNum s with
  | nil =>
    rw [forRecords]
    split
    · exact .error (format _)
    · exact .ok _
  | cons line rest ih =>
    rw [forRecords]
    split
    · exact .error (format _)
    · split
      · exact (consumer _ _ _).bind fun _ _ => ih _ _ _
      · exact ih _ _ _

/-- The line numbers of the records ascend. -/
theorem records_ascending {lines : List (List Char)} {reader : Reader} {lineNum : Nat}
    {rs : List (Nat × List String)} (listed : records reader lineNum lines = .ok rs) :
    (rs.map Prod.fst).Pairwise (· < ·) ∧ ∀ r ∈ rs, lineNum < r.1 := by
  induction lines generalizing reader lineNum rs with
  | nil =>
    obtain ⟨_, _, listed⟩ := Checked.bind_eq_ok.mp listed
    cases Checked.pure_eq_ok.mp listed
    exact ⟨.nil, by simp⟩
  | cons line rest ih =>
    obtain ⟨next_reader, read, listed⟩ := Checked.bind_eq_ok.mp listed
    split at listed
    · obtain ⟨later, behind, result⟩ := Checked.bind_eq_ok.mp listed
      cases Checked.pure_eq_ok.mp result
      obtain ⟨ascending, above⟩ := ih behind
      refine ⟨?_, List.forall_mem_cons.mpr ⟨Nat.lt_succ_self _, fun r member => ?_⟩⟩
      · rw [List.map_cons, List.pairwise_cons]
        exact ⟨List.forall_mem_map.mpr above, ascending⟩
      · exact (Nat.lt_succ_self _).trans (above r member)
    · obtain ⟨ascending, above⟩ := ih listed
      exact ⟨ascending, fun r member => (Nat.lt_succ_self _).trans (above r member)⟩

end Records
end Csv

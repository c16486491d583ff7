import MarkupLint.Execution

/-!
# Reports as JSON lines

Each finding takes one record, unless the path of its file is no text; a summary comes last. A
record is an object whose values are texts, numbers and truth values. It is written on one line:
control characters in texts are escaped.
-/

namespace MarkupLint.Report

/-! ## Records -/

/-- The values of records. -/
inductive JsonValue where
  | text (s : List Char)
  | number (n : Nat)
  | truth (b : Bool)
deriving DecidableEq, Repr

abbrev JsonRecord := List (String × JsonValue)

def hexDigit (n : Nat) : Char := Nat.digitChar n

/-- How a character is written in a text. -/
def jsonChar (c : Char) : List Char :=
  if c = '"' ∨ c = '\\' then ['\\', c]
  else if c = '\x08' then ['\\', 'b']
  else if c = '\x0c' then ['\\', 'f']
  else if c = '\n' then ['\\', 'n']
  else if c = '\r' then ['\\', 'r']
  else if c = '\t' then ['\\', 't']
  else if c.toNat < 32 then ['\\', 'u', '0', '0', hexDigit (c.toNat / 16), hexDigit (c.toNat % 16)]
  else [c]

def jsonText (s : List Char) : List Char := '"' :: (s.flatMap jsonChar ++ ['"'])

def JsonValue.encode : JsonValue → List Char
  | text s => jsonText s
  | number n => Nat.toDigits 10 n
  | truth true => "true".toList
  | truth false => "false".toList

/-- How a value is written under its key. -/
def jsonField (f : String × JsonValue) : List Char := jsonText f.1.toList ++ ':' :: f.2.encode

def JsonRecord.encode (r : JsonRecord) : List Char :=
  '\x7b' :: (List.intercalate [','] (r.map jsonField) ++ ['\x7d'])

/-- How a record is written on a line of its own. -/
def JsonRecord.line (r : JsonRecord) : List Char := r.encode ++ ['\n']

/-! ## The records of a report -/

open Lint

def findingRecord (path : List Char) (d : Diagnostic) : JsonRecord :=
  [("type", .text "diagnostic".toList), ("rule", .text d.rule.id.text.toList),
    ("severity", .text d.severity.name.toList), ("file", .text path),
    ("line", .number d.position.line), ("column", .number d.position.column),
    ("message", .text d.message.toList), ("evidence", .text d.evidence)]

def summaryRecord (r : Report) : JsonRecord :=
  [("type", .text "summary".toList), ("passed", .truth (r.total == 0)),
    ("files_checked", .number r.checked), ("files_unreadable", .number r.unreadable),
    ("total_diagnostics", .number r.total)]

def jsonRecords (r : Report) : List JsonRecord :=
  (r.findings.filterMap fun f => f.1.text?.map fun path => findingRecord path f.2) ++
    [summaryRecord r]

def jsonl (r : Report) : List Char := (jsonRecords r).flatMap (·.line)

end MarkupLint.Report

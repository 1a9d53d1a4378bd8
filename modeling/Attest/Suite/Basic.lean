import Attest.Suite.Draft
import Attest.Suite.Fingerprint

/-!
# Suites

A suite that was read and has the right types: a list of checks, each with a document and the
calls to be made on it.

## Main definitions

* `Suite`, `CheckPlan` — a suite and a check
* `Suite.ofDraft?` — the suite that a draft stands for
* `Suite.data`, `Suite.hash` — the suite as data, and its fingerprint
-/

namespace Attest

/-- A document source and the calls to be made on the document. -/
structure CheckPlan where
  id : String
  description : Option String := none
  document : Value := .null
  documentText : Option String := none
  documentFile : Option Location := none
  steps : List Invocation := []
  deriving Repr, Inhabited

/-- A suite of checks. -/
structure Suite where
  version : Int
  name : String
  /-- The greatest length of shown values. -/
  limit : Int := Value.defaultLimit
  checks : List CheckPlan := []
  deriving Repr, Inhabited

/-- What a check is called in outcomes. -/
def CheckPlan.title (c : CheckPlan) : String :=
  match c.description with
  | some d => if d.isEmpty then c.id else d
  | none => c.id

namespace Suite

def text? : Value → Option String
  | .str s => some s
  | _ => none

/-- A text that may be absent. -/
def optionalText? : Value → Option (Option String)
  | .null => some none
  | .str s => some (some s)
  | _ => none

def int? : Value → Option Int
  | .int n => some n
  | _ => none

def checkOfDraft? (d : DraftCheck) : Option CheckPlan := do
  return {
    id := ← text? d.id
    description := ← optionalText? d.description
    document := d.document
    documentText := ← optionalText? d.documentText
    documentFile := d.documentFile
    steps := d.steps }

/-- The suite that a draft stands for, if its values have the right types. -/
def ofDraft? (d : Draft) : Option Suite := do
  return {
    version := ← int? d.version
    name := ← text? d.name
    limit := ← int? d.limit
    checks := ← d.checks.mapM checkOfDraft? }

/-! ### As data -/

def callData (c : Invocation) : Value :=
  .record [("op", .str c.op.name), ("args", .list c.args), ("kwargs", .dict c.named)]

def optionalData (s : Option String) : Value := (s.map Value.str).getD .null

def checkData (c : CheckPlan) : Value :=
  .record [("id", .str c.id), ("description", optionalData c.description),
    ("document", c.document), ("document_text", optionalData c.documentText),
    ("document_file", optionalData (c.documentFile.map Location.text)),
    ("steps", .list (c.steps.map callData))]

/-- The suite as data. -/
def data (s : Suite) : Value :=
  .record [("version", .int s.version), ("name", .str s.name),
    ("defaults", .record [("max_value_length", .int s.limit)]),
    ("checks", .list (s.checks.map checkData))]

/-- The fingerprint of the suite. -/
def hash (s : Suite) : Except Fault String := fingerprint s.data

end Suite

end Attest

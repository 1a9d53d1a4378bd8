import Attest.Files.Location
import Attest.Suite.Op
import Attest.Suite.Schema
import Attest.Value.Excerpt

/-!
# Reading suites

The data of a suite file, read into checks and calls. Reading trusts the data, so it can be
interrupted on data that were not validated, and it leaves values as they are.

## Main definitions

* `Invocation` — an operation with its arguments
* `Draft`, `DraftCheck` — a suite as it is written
* `Draft.read` — reading the data of a suite
-/

namespace Attest

/-- A call that a suite makes. -/
structure Invocation where
  op : Op
  args : List Value := []
  named : Entries := []
  deriving Repr, Inhabited

/-- A check as it is written. -/
structure DraftCheck where
  id : Value
  description : Value
  document : Value
  documentText : Value
  documentFile : Option Location
  steps : List Invocation
  deriving Repr, Inhabited

/-- A suite as it is written. -/
structure Draft where
  version : Value
  name : Value
  limit : Value
  checks : List DraftCheck
  deriving Repr, Inhabited

namespace Draft

/-- The entries of a mapping, of which something is asked. -/
def entriesOf (asked : String) (v : Value) : Except Fault Entries :=
  match v with
  | .object _ _ entries => .ok entries
  | v => .error (.noSuchPart s!"{v.typeName} has no {asked}")

def requiredEntry (name : String) (entries : Entries) : Except Fault Value :=
  match Value.field? name entries with
  | some v => .ok v
  | none => .error (.absentKey name)

/-- The operation that a value names. -/
def opNamed (v : Value) : Except Fault Op :=
  match opOf? v with
  | some op => .ok op
  | none => do throw (.unknownOperation (← v.display))

/-- A step of a check. A list or mapping of a key or path with a value is spread over the
arguments; every other argument is one. -/
def readStep (step : Value) : Except Fault Invocation :=
  match step with
  | .str _ => do return { op := ← opNamed step }
  | step => do
    match ← entriesOf "items" step with
    | [] => throw .emptyStep
    | (name, v) :: _ =>
      let op ← opNamed name
      match op.form, v with
      | .nothing, _ => return { op := op }
      | .pair, .array _ .list items => return { op := op, args := items }
      | .pair, .object _ .plain entries => return { op := op, named := entries }
      | _, v => return { op := op, args := [v] }

def readSteps : List Value → Except Fault (List Invocation)
  | [] => .ok []
  | step :: rest => do
    let call ← readStep step
    return call :: (← readSteps rest)

/-- The place of a document file, below the directory of the suite unless it is absolute. -/
def readLocation (base : Option Location) (v : Value) : Except Fault (Option Location) :=
  match v with
  | .null => .ok none
  | .str s =>
    let l := Location.ofText s
    .ok (some (match base with
      | some b => b.join l
      | none => l))
  | v => .error (.unsuitable s!"{v.typeName} is no path")

def readCheck (base : Option Location) (check : Value) : Except Fault DraftCheck := do
  let entries ← entriesOf "get" check
  let documentFile ← readLocation base (entryOr "document_file" entries)
  let id ← requiredEntry "id" entries
  let steps ← readSteps (← (← requiredEntry "steps" entries).elements)
  return {
    id := id
    description := entryOr "description" entries
    document := entryOr "document" entries
    documentText := entryOr "document_text" entries
    documentFile := documentFile
    steps := steps }

def readChecks (base : Option Location) : List Value → Except Fault (List DraftCheck)
  | [] => .ok []
  | check :: rest => do
    let first ← readCheck base check
    return first :: (← readChecks base rest)

/-- The greatest length of shown values, if the defaults set one. -/
def readLimit (defaults : Value) : Except Fault Value :=
  if !defaults.isTruthy then .ok (.int Value.defaultLimit)
  else do
    let entries ← entriesOf "get" defaults
    return (Value.field? "max_value_length" entries).getD (.int Value.defaultLimit)

/-- Read the data of a suite. -/
def read (base : Option Location) (data : Value) : Except Fault Draft := do
  match data with
  | .object _ _ entries =>
    let version ← requiredEntry "version" entries
    let name ← requiredEntry "name" entries
    let limit ← readLimit (entryOr "defaults" entries)
    let checks ← readChecks base (← (← requiredEntry "checks" entries).elements)
    return { version := version, name := name, limit := limit, checks := checks }
  | v => throw (.unsuitable s!"{v.typeName} has no entries")

end Draft

end Attest

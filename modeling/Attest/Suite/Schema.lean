import Attest.Suite.Op
import Attest.Value.Display
import Attest.Value.Order

/-!
# Validation of suites

The raw data of a suite file is checked against the schema before it is used. Every problem is
reported with its place, and where it helps with the offending value and a suggestion. Wrong
top-level keys are reported alone, everything else together.

## Main definitions

* `SuiteError`, `Validation` — a problem, and all problems
* `schemaErrors` — the problems of a suite
* `checkErrors`, `stepsErrors`, `stepErrors` — those of a check, of its steps, of a step

## Implementation notes

Validation itself can be interrupted: keys of several sorts have no order to be reported in, and a
list or mapping cannot be looked up among the names of the kinds.
-/

namespace Attest

/-- A problem with a suite. -/
structure SuiteError where
  /-- Where it is; a key of the suite that is no string stands for itself. -/
  place : Value
  message : String
  value : Option Value := none
  suggestion : Option String := none
  deriving Repr, Inhabited

/-- The problems with a suite. -/
abbrev Validation := List SuiteError

/-- The errors of a part of a suite. -/
abbrev Findings := Except Fault (List SuiteError)

/-! ### Texts -/

/-- A problem in several lines. -/
def SuiteError.text (e : SuiteError) : Except Fault String := do
  let place ← e.place.label
  let shown ← match e.value with
    | some v => do pure ["   Got: " ++ (← v.display)]
    | none => pure []
  let hint := match e.suggestion with
    | some s => ["   💡 " ++ s]
    | none => []
  return "\n".intercalate (("❌ " ++ place ++ ": " ++ e.message) :: shown ++ hint)

def errorTexts : List SuiteError → Except Fault (List String)
  | [] => .ok []
  | e :: rest => do
    let text ← e.text
    return text :: (← errorTexts rest)

/-- All problems. -/
def Validation.text (errors : Validation) : Except Fault String := do
  if errors.isEmpty then return "✅ Schema validation passed"
  else
    return "\n".intercalate
      (s!"Schema validation failed with {errors.length} error(s):\n" :: (← errorTexts errors))

/-! ### Building errors -/

/-- An error at a place. -/
def problem (place message : String) : SuiteError := { place := .str place, message }

/-- The same with the offending value, unless that is null. -/
def SuiteError.got (e : SuiteError) (v : Value) : SuiteError :=
  match v with
  | .null => e
  | v => { e with value := some v }

def SuiteError.suggest (e : SuiteError) (text : String) : SuiteError :=
  { e with suggestion := some text }

/-- The entry under a name, or null. -/
def entryOr (name : String) (entries : Entries) : Value :=
  (Value.field? name entries).getD .null

/-- The keys that are none of the given names. -/
def otherKeys (names : List String) (entries : Entries) : List Value :=
  (entries.map Prod.fst).filter fun k => match k with
    | .str s => !names.contains s
    | _ => true

/-- A text without blanks only. -/
def isBlankText (s : String) : Bool := s.toList.all Boundaries.blank.contains

/-! ### Top-level fields -/

def requiredFields : List String := ["checks", "name", "version"]

def suiteFields : List String := ["checks", "defaults", "name", "version"]

def missingField (name : String) : SuiteError :=
  (problem name s!"Required field '{name}' is missing").suggest s!"Add '{name}:' to your suite file"

def unknownFields : List Value → Findings
  | [] => .ok []
  | key :: rest => do
    let shown ← key.label
    let others ← unknownFields rest
    let error : SuiteError := { place := key, message := s!"Unknown top-level field '{shown}'" }
    return error.suggest ("Valid fields are: " ++ ", ".intercalate suiteFields) :: others

/-- Fields that are missing, then fields that are unknown. -/
def topLevelErrors (entries : Entries) : Findings := do
  let missing := requiredFields.filter fun name => (Value.field? name entries).isNone
  let unknown ← Value.sortKeys (otherKeys suiteFields entries)
  return missing.map missingField ++ (← unknownFields unknown)

def versionErrors (version : Value) : List SuiteError :=
  match version with
  | .int n => if n < 1 then [(problem "version" "Must be >= 1").got version] else []
  | v => [((problem "version" "Must be an integer").got v).suggest "Use 'version: 1'"]

def nameErrors (name : Value) : List SuiteError :=
  match name with
  | .str s =>
    if isBlankText s then
      [(problem "name" "Cannot be empty").suggest "Provide a descriptive name for your suite"]
    else []
  | v => [(problem "name" "Must be a string").got v]

def unknownDefaults : List Value → Findings
  | [] => .ok []
  | key :: rest => do
    let shown ← key.label
    let others ← unknownDefaults rest
    return (problem ("defaults." ++ shown) "Unknown defaults field").suggest
      "Valid fields are: max_value_length" :: others

/-- The least greatest length of shown values. -/
def minValueLength : Int := 10

def lengthErrors (length : Value) : List SuiteError :=
  let wrong := [(problem "defaults.max_value_length"
    s!"Must be an integer >= {minValueLength}").got length]
  match length with
  | .int n => if n < minValueLength then wrong else []
  | _ => wrong

def defaultsErrors (defaults : Value) : Findings :=
  match defaults with
  | .null => .ok []
  | .object _ .plain entries => do
    let unknown ← Value.sortKeys (otherKeys ["max_value_length"] entries)
    return (← unknownDefaults unknown)
      ++ (match Value.field? "max_value_length" entries with
        | some length => lengthErrors length
        | none => [])
  | v => .ok [(problem "defaults" "Must be an object").got v]

/-! ### Arguments -/

/-- Why a value cannot be looked up among texts: it cannot be a key. A set cannot be one either, but
it is looked up by its members. -/
def unsought? : Value → Option String
  | .set _ => none
  | v => v.unhashable?

/-- Whether a value is the name of a kind. -/
def namesKind (v : Value) : Except Fault Bool :=
  match unsought? v with
  | some name => .error (.unsuitable s!"unhashable type: '{name}'")
  | none => .ok <| match v with
    | .str s => (Kind.ofName? s).isSome
    | _ => false

/-- Whether all values are names of kinds, up to the first that is not. -/
def allNameKinds : List Value → Except Fault Bool
  | [] => .ok true
  | v :: rest => do
    if ← namesKind v then allNameKinds rest else return false

/-- The names of the kinds, sorted. -/
def kindHint : String := "Valid types: array, bool, null, number, object, string"

/-- The texts of keys in one line; all must be strings. -/
def joinKeys (keys : List Value) : Except Fault String := do
  let texts ← keys.mapM fun k => match k with
    | .str s => .ok s
    | v => Except.error (Fault.unsuitable
        s!"a key is of type {v.typeName}")
  return ", ".intercalate texts

/-- The errors of a key or path with a value, which may be left out unless it is required. -/
def pairErrors (first : String) (valueRequired : Bool) (v : Value) (path : String) : Findings :=
  match v with
  | .array _ .list items =>
    let least := if valueRequired then 2 else 1
    if items.length < least || 2 < items.length then
      .ok [(problem path (if valueRequired then s!"Expected [{first}, value]"
        else s!"Expected [{first}] or [{first}, value]")).got v]
    else match items with
      | .str _ :: _ => .ok []
      | x :: _ => .ok [(problem path s!"'{first}' must be a string").got x]
      | [] => .ok []
  | .object _ .plain entries => do
    let unknown := otherKeys [first, "value"] entries
    let surplus ← if unknown.isEmpty then pure []
      else do
        let names ← joinKeys (← Value.sortKeys unknown)
        pure [(problem path s!"Unknown argument(s): {names}").suggest
          s!"Valid arguments: {first}, value"]
    let given := match entryOr first entries with
      | .str _ => []
      | x => [(problem path s!"'{first}' must be a string").got x]
    let absent := if valueRequired && (Value.field? "value" entries).isNone then
        [problem path "'value' is required"]
      else []
    return surplus ++ given ++ absent
  | v =>
    let isText := match v with
      | .str _ => true
      | _ => false
    .ok (if valueRequired || !isText then
        [(problem path s!"Must be a list or a mapping with '{first}'").got v]
      else [])

/-- The errors of an argument. -/
def argumentErrors (op : Op) (v : Value) (path : String) : Findings :=
  match op.form with
  | .count =>
    let wrong := [(problem path "Must be a non-negative integer").got v]
    match v with
    | .int n => .ok (if n < 0 then wrong else [])
    | _ => .ok wrong
  | .text =>
    match v with
    | .str _ => .ok []
    | v => .ok [(problem path "Must be a string").got v]
  | .kind => do
    return if ← namesKind v then []
      else [((problem path "Invalid JSON type").got v).suggest kindHint]
  | .kinds => do
    let wrong :=
      [((problem path "Must be a non-empty list of JSON types").got v).suggest kindHint]
    match v with
    | .array _ .list (x :: rest) => return if ← allNameKinds (x :: rest) then [] else wrong
    | _ => return wrong
  | .criteria =>
    match v with
    | .object _ .plain (_ :: _) => .ok []
    | v => .ok [(problem path "Must be a non-empty mapping of key: value").got v]
  | .pair => pairErrors (if op = .containing then "key" else "path") (op = .containing) v path
  | .nothing | .anything => .ok []

/-! ### Steps -/

/-- A step entry: the name of an operation, with an argument or bare. -/
def entryOf? (step : Value) : Option (Value × Option Value) :=
  match step with
  | .str s => some (.str s, none)
  | .object _ .plain [(name, v)] => some (name, some v)
  | _ => none

def opOf? : Value → Option Op
  | .str s => Op.ofName? s
  | _ => none

/-- The errors of an operation with its argument. -/
def opErrors (op : Op) (argument : Option Value) (path : String) : Findings :=
  if op.form = .nothing then
    match argument with
    | none | some .null => .ok []
    | some v => .ok [(problem path s!"'{op.name}' takes no arguments").got v]
  else
    match argument with
    | none =>
      .ok [(problem path s!"'{op.name}' requires an argument").suggest
        s!"Write it as '{op.name}: <value>'"]
    | some v => argumentErrors op v path

/-- The operation of a step entry, if it has one, and the errors of the entry. -/
def stepErrors (step : Value) (path : String) : Except Fault (Option Op × List SuiteError) :=
  match entryOf? step with
  | none =>
    .ok (none, [((problem path "Must be an op name or a single-key mapping").got step).suggest
      "e.g. '- is_string' or '- at: /crew'"])
  | some (name, argument) =>
    match opOf? name with
    | some op => do return (some op, ← opErrors op argument path)
    | none => do
      let shown ← name.label
      return (none, [(problem path s!"Unknown op '{shown}'").suggest
        ("Valid ops: " ++ ", ".intercalate (Op.all.map Op.name))])

/-- What an operation does to the number of open blocks, and whether a block was missing. -/
def blockDepth (depth : Nat) : Op → Nat × Bool
  | .either => (depth + 1, false)
  | .orElse => (depth, depth = 0)
  | .end_ => (depth - 1, depth = 0)
  | _ => (depth, false)

/-- The errors of an operation because of its place among the steps. -/
def placeErrors (op : Op) (unopened isLast : Bool) (path : String) : List SuiteError :=
  (if unopened then [problem path s!"'{op.name}' without a preceding 'either'"] else [])
    ++ (if op.endsCheck && !isLast then
        [(problem path s!"Finalizer '{op.name}' must be the last step").suggest
          "Use 'must_selected' to check counts mid-chain"]
      else [])

/-- The errors of the steps from a position on, and how many blocks stay open. -/
def stepsErrorsFrom (path : String) : Nat → Nat → List Value →
    Except Fault (List SuiteError × Nat)
  | _, depth, [] => .ok ([], depth)
  | index, depth, step :: rest => do
    let stepPath := s!"{path}[{index}]"
    let (op, errors) ← stepErrors step stepPath
    match op with
    | none =>
      let (others, left) ← stepsErrorsFrom path (index + 1) depth rest
      return (errors ++ others, left)
    | some op =>
      let (depth, unopened) := blockDepth depth op
      let (others, left) ← stepsErrorsFrom path (index + 1) depth rest
      return (errors ++ placeErrors op unopened rest.isEmpty stepPath ++ others, left)

def stepsErrors (steps : List Value) (path : String) : Findings := do
  let (errors, depth) ← stepsErrorsFrom path 0 0 steps
  return errors ++ (if depth = 0 then []
    else [problem path s!"{depth} 'either' block(s) not closed with 'end'"])

/-! ### Checks -/

def documentSources : List String := ["document", "document_text", "document_file"]

/-- The fields of a check, sorted. -/
def checkFields : List String :=
  ["description", "document", "document_file", "document_text", "id", "steps"]

def unknownCheckFields (path : String) : List Value → Findings
  | [] => .ok []
  | key :: rest => do
    let shown ← key.label
    let others ← unknownCheckFields path rest
    return (problem (path ++ "." ++ shown) s!"Unknown check field '{shown}'").suggest
      ("Valid fields are: " ++ ", ".intercalate checkFields) :: others

/-- The errors of an id, and the ids that are taken after it. -/
def idErrors (seen : List String) (id : Value) (path : String) :
    List SuiteError × List String :=
  let empty := ([(problem (path ++ ".id") "Must be a non-empty string").got id], seen)
  match id with
  | .str s =>
    if isBlankText s then empty
    else if seen.contains s then
      ([(problem (path ++ ".id") s!"Duplicate check id '{s}'").suggest
        "Check ids must be unique within a suite"], seen)
    else ([], s :: seen)
  | _ => empty

def textFieldErrors (name : String) (entries : Entries) (path : String) : List SuiteError :=
  match Value.field? name entries with
  | none | some (.str _) => []
  | some v => [(problem (path ++ "." ++ name) "Must be a string").got v]

def sourceErrors (entries : Entries) (path : String) : List SuiteError :=
  let given := documentSources.filter fun name => (Value.field? name entries).isSome
  let wrong := problem path s!"Exactly one document source is required, got {given.length}"
  (if given.length = 1 then []
    else [(wrong.got (if given.isEmpty then .null else .list (given.map .str))).suggest
      ("Use one of: " ++ ", ".intercalate documentSources)])
    ++ textFieldErrors "document_text" entries path ++ textFieldErrors "document_file" entries path

def descriptionErrors (description : Value) (path : String) : List SuiteError :=
  match description with
  | .null | .str _ => []
  | v => [(problem (path ++ ".description") "Must be a string").got v]

/-- The errors of a check, and the ids that are taken after it. -/
def checkErrors (seen : List String) (check : Value) (path : String) :
    Except Fault (List SuiteError × List String) :=
  match check with
  | .object _ .plain entries => do
    let unknown ← unknownCheckFields path (← Value.sortKeys (otherKeys checkFields entries))
    let (ids, seen) := idErrors seen (entryOr "id" entries) path
    let fields := descriptionErrors (entryOr "description" entries) path
      ++ sourceErrors entries path
    let steps ← match entryOr "steps" entries with
      | .array _ .list (x :: rest) => stepsErrors (x :: rest) (path ++ ".steps")
      | v => pure [(problem (path ++ ".steps") "Must be a non-empty list").got v]
    return (unknown ++ ids ++ fields ++ steps, seen)
  | v => .ok ([(problem path "Must be an object").got v], seen)

def checksErrorsFrom (seen : List String) : Nat → List Value → Findings
  | _, [] => .ok []
  | index, check :: rest => do
    let (errors, seen) ← checkErrors seen check s!"checks[{index}]"
    return errors ++ (← checksErrorsFrom seen (index + 1) rest)

def checksErrors (checks : Value) : Findings :=
  match checks with
  | .array _ .list [] =>
    .ok [(problem "checks" "Must contain at least one check").suggest
      "Add a check with an id, a document and steps"]
  | .array _ .list items => checksErrorsFrom [] 0 items
  | v => .ok [(problem "checks" "Must be a list").got v]

/-- The problems of a suite. -/
def schemaErrors (entries : Entries) : Findings := do
  let top ← topLevelErrors entries
  if !top.isEmpty then return top
  let version := versionErrors (entryOr "version" entries)
  let name := nameErrors (entryOr "name" entries)
  let defaults ← defaultsErrors (entryOr "defaults" entries)
  let checks ← checksErrors (entryOr "checks" entries)
  return version ++ name ++ defaults ++ checks

end Attest

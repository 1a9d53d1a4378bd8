import Attest.Files.Tree
import Attest.Suite.Basic
import Attest.Yaml.Basic

/-!
# Loading suites

Data are validated first and read only if nothing is wrong with them, so that whoever loads a suite
gets either a suite or the problems with it.

## Main definitions

* `Loaded` — a suite, or what is wrong with it
* `Suite.ofData`, `Suite.ofYaml` — loading data and YAML texts
* `Suite.load` — loading a file
-/

namespace Attest

/-- What comes of loading a suite. -/
inductive Loaded where
  | rejected (problems : Validation)
  | accepted (suite : Suite)
  deriving Repr, Inhabited

namespace Suite

/-- Load data that come from the given source. Places of document files are below `base`. -/
def ofData (source : String) (base : Option Location) (data : Value) : Except Fault Loaded := do
  match data with
  | .object _ .plain entries =>
    let problems ← schemaErrors entries
    if !problems.isEmpty then return .rejected problems
    match ofDraft? (← Draft.read base data) with
    | some suite => return .accepted suite
    | none => throw (.unsuitable "the suite has a field of a wrong type")
  | v =>
    return .rejected
      [(problem source "Content must be a YAML object (not a list or scalar)").got
        (.str v.typeName)]

/-! ### Texts and files -/

/-- The problem with a text that is no YAML. -/
def syntaxProblem (source detail : String) : SuiteError :=
  problem source ("Invalid YAML syntax: " ++ detail)

/-- Load a YAML text. -/
def ofYaml (yaml : YamlLoader) (base : Option Location) (text : String) : Except Fault Loaded :=
  match yaml (.text text) with
  | .ok data => ofData "yaml" base data
  | .error (.notYaml detail) => .ok (.rejected [syntaxProblem "yaml" detail])
  | .error fault => .error fault

/-- Load a file. Places of document files are below its directory. -/
def load (yaml : YamlLoader) (root : FileNode) (path : Location) : Except Fault Loaded := do
  if !(← root.exists? path) then
    return .rejected
      [(problem path.text "File not found").suggest "Check the file path is correct"]
  match yaml (.file (← root.read path)) with
  | .ok data => ofData path.text (some path.parent) data
  | .error (.notYaml detail) =>
    return .rejected [(syntaxProblem path.text detail).suggest
      "Check YAML formatting (indentation, colons, etc.)"]
  | .error fault => throw fault

end Suite

end Attest

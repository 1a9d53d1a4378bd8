import Attest.Value.Kind
import Attest.Yaml.Node
import Attest.Yaml.Scalar.Reading

/-!
# Nodes as values

Every node becomes the value that its tag asks for. A mapping takes over the entries of the
mappings behind its merge keys first, so that its own entries win.

## Main definitions

* `Node.textOf`, `Node.scalarValue` — the text that a node stands for, and its value
* `Node.toValue` — the value of a node under its tag
-/

namespace Attest.Yaml

namespace Node

mutual

/-- The text of a scalar, or of the value that stands for a mapping. -/
def textOf : Node → Except Fault String
  | .scalar _ text => .ok text
  | .sequence .. => .error .notYaml
  | .mapping _ _ entries => valueText entries

/-- The text under the first key that stands for the value of a mapping. -/
def valueText : List (Node × Node) → Except Fault String
  | [] => .error .notYaml
  | (key, v) :: rest => if key.tag = .value then textOf v else valueText rest

end

/-- The value of a text under a tag. -/
def scalarValue (tag : Tag) (text : String) : Except Fault Value :=
  match tag with
  | .null => .ok .null
  | .bool => (boolOf text).map Value.bool
  | .int => (intOf text).map Value.int
  | .float => (floatOf text).map Value.float
  | .binary => (bytesOf text).map Value.bytes
  | .timestamp => momentOf text
  | .str => .ok (.str text)
  | _ => .error .notYaml

/-- The tag of a key: in a mapping, the key for its value is a text. -/
def keyTag (key : Node) : Tag := if key.tag = .value then .str else key.tag

/-- Whether a key would be a list, a mapping or a set. Keys are compared, so they cannot be, whatever
is in them. -/
def isCollection : Node → Bool
  | .scalar .. => false
  | .sequence .. => true
  | .mapping _ tag _ => tag = .map || tag = .set

mutual

/-- The value of a node under a tag. -/
def valueAs (tag : Tag) : Node → Except Fault Value
  | .scalar _ text => scalarValue tag text
  | .sequence id _ items =>
    match tag with
    | .seq => return .array id .list (← itemValues items)
    | .orderedMap | .pairs => return .array id .list (← pairValues items)
    | _ => throw .notYaml
  | .mapping id _ entries =>
    match tag with
    | .map => do
      let (taken, own) ← entryValues entries
      return .object id .plain (Value.ofPairs (taken ++ own))
    | .set => do
      let (taken, own) ← entryValues entries
      return .set ((Value.ofPairs (taken ++ own)).map Prod.fst)
    | .timestamp => do
      let _ ← valueText entries
      throw (.unsuitable "a mapping is no moment")
    | _ => do scalarValue tag (← valueText entries)

def itemValues : List Node → Except Fault (List Value)
  | [] => .ok []
  | item :: rest => do
    let v ← valueAs item.tag item
    return v :: (← itemValues rest)

/-- The pairs of a sequence of mappings with one entry each. -/
def pairValues : List Node → Except Fault (List Value)
  | [] => .ok []
  | .mapping id _ [(key, v)] :: rest => do
    let k ← valueAs key.tag key
    let x ← valueAs v.tag v
    return .array id .tuple [k, x] :: (← pairValues rest)
  | _ :: _ => .error .notYaml

/-- The entries that a mapping takes over, and its own. -/
def entryValues : List (Node × Node) → Except Fault (Entries × Entries)
  | [] => .ok ([], [])
  | (key, v) :: rest =>
    if key.tag = .merge then do
      let first ← mergedEntries v
      let (taken, own) ← entryValues rest
      return (first ++ taken, own)
    else if key.isCollection then .error .notYaml
    else do
      let k ← valueAs (keyTag key) key
      let x ← valueAs v.tag v
      let (taken, own) ← entryValues rest
      return (taken, (k, x) :: own)

/-- The entries behind a merge key: those of a mapping, or of the mappings of a sequence, the last
one first. -/
def mergedEntries : Node → Except Fault Entries
  | .mapping _ _ entries => do
    let (taken, own) ← entryValues entries
    return taken ++ own
  | .sequence _ _ items => mergedFromItems items
  | .scalar .. => .error .notYaml

def mergedFromItems : List Node → Except Fault Entries
  | [] => .ok []
  | .mapping _ _ entries :: rest => do
    let (taken, own) ← entryValues entries
    return (← mergedFromItems rest) ++ taken ++ own
  | _ :: _ => .error .notYaml

end

/-- The value of a node under its own tag. -/
def toValue (node : Node) : Except Fault Value := valueAs node.tag node

end Node

end Attest.Yaml

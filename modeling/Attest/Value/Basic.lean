import Attest.Calendar
import Attest.Number.Double

/-!
# Values

The values that documents, expectations and suites are made of. Beside the JSON kinds there are
the kinds that a YAML suite or a caller can bring in and that are not JSON: sets, byte strings,
dates, compiled patterns and the marker for an expectation that was not given.

Arrays and objects are nodes: each carries an identity, so that two equal arrays at different
places of a document stay two candidates, while an aliased node is one.

## Main definitions

* `Value` — a value; an object is a list of entries in insertion order
* `Value.numbered` — gives every node of a tree an identity of its own
* `Value.sameKey` — equality of object keys, under which `1`, `1.0` and `true` are one key
-/

namespace Attest

/-- Identity of an array or object within what a chain navigates. -/
abbrev NodeId := Nat

/-- Arrays come in a growable and a fixed form; they differ in diagnostics only. -/
inductive ArrayForm where
  | list
  | tuple
  deriving DecidableEq, Repr, Inhabited

/-- Objects come in a plain form and as a read-only view, which is not rendered as JSON. -/
inductive ObjectForm where
  | plain
  | view
  deriving DecidableEq, Repr, Inhabited

/-- A value of a document, an expectation or a suite. -/
inductive Value where
  | null
  | bool (b : Bool)
  | int (n : Int)
  | float (x : Double)
  | str (s : String)
  | array (node : NodeId) (form : ArrayForm) (items : List Value)
  | object (node : NodeId) (form : ObjectForm) (entries : List (Value × Value))
  | set (members : List Value)
  | bytes (data : List UInt8)
  | date (d : CalendarDate)
  | timestamp (t : Timestamp)
  /-- A pattern that was compiled beforehand, with the letters of its flags. -/
  | pattern (source : String) (flags : List Char)
  /-- Stands for an expected value that was not given. -/
  | missing
  deriving Repr, Inhabited

/-- Entries of an object, in insertion order. -/
abbrev Entries := List (Value × Value)

namespace Value

def list (items : List Value) : Value := .array 0 .list items

def dict (entries : Entries) : Value := .object 0 .plain entries

/-- A plain object whose keys are strings. -/
def record (fields : List (String × Value)) : Value := dict (fields.map fun (k, v) => (.str k, v))

/-! ### Node identities -/

mutual

/-- Numbers the nodes of a tree in pre-order from `next` on, and returns the next free number.
There is only one empty tuple, number 0. -/
def numbered (next : NodeId) : Value → Value × NodeId
  | .array _ .tuple [] => (.array 0 .tuple [], next)
  | .array _ form items =>
    let (items, after) := numberedItems (next + 1) items
    (.array next form items, after)
  | .object _ form entries =>
    let (entries, after) := numberedEntries (next + 1) entries
    (.object next form entries, after)
  | v => (v, next)

def numberedItems (next : NodeId) : List Value → List Value × NodeId
  | [] => ([], next)
  | v :: rest =>
    let (v, next) := numbered next v
    let (rest, next) := numberedItems next rest
    (v :: rest, next)

def numberedEntries (next : NodeId) : Entries → Entries × NodeId
  | [] => ([], next)
  | (k, v) :: rest =>
    let (v, next) := numbered next v
    let (rest, next) := numberedEntries next rest
    ((k, v) :: rest, next)

end

/-- A tree whose nodes are numbered from 1. -/
def asDocument (v : Value) : Value := (numbered 1 v).1

/-! ### Keys -/

/-- The number behind a key: the truth values count as 1 and 0. -/
def number? : Value → Option (Int ⊕ Double)
  | .bool b => some (.inl (if b then 1 else 0))
  | .int n => some (.inl n)
  | .float x => some (.inr x)
  | _ => none

/-- The exact order of two numbers. -/
def compareNumbers? : Int ⊕ Double → Int ⊕ Double → Option Ordering
  | .inl a, .inl b => some (compare a b)
  | .inl a, .inr y => (y.compareInt? a).map Ordering.swap
  | .inr x, .inl b => x.compareInt? b
  | .inr x, .inr y => x.compare? y

mutual

/-- Whether two keys are one key of an object. -/
def sameKey : Value → Value → Bool
  | .null, .null => true
  | .str a, .str b => a == b
  | .bytes a, .bytes b => a == b
  | .date a, .date b => a == b
  | .timestamp a, .timestamp b => a.offset.isSome == b.offset.isSome && a.micros == b.micros
  | .pattern a f, .pattern b g => a == b && f == g
  | .missing, .missing => true
  | .array _ .tuple xs, .array _ .tuple ys => sameKeys xs ys
  | a, b =>
    match a.number?, b.number? with
    | some x, some y => compareNumbers? x y == some .eq
    | _, _ => false

def sameKeys : List Value → List Value → Bool
  | [], [] => true
  | x :: xs, y :: ys => sameKey x y && sameKeys xs ys
  | _, _ => false

end

/-- The value stored under a key. -/
def lookup (key : Value) : Entries → Option Value
  | [] => none
  | (k, v) :: rest => if sameKey key k then some v else lookup key rest

/-- The value stored under a string key. -/
def field? (name : String) (entries : Entries) : Option Value := lookup (.str name) entries

/-- Stores a value: an old key keeps its place, a new one goes to the end. -/
def insert (key value : Value) : Entries → Entries
  | [] => [(key, value)]
  | (k, v) :: rest => if sameKey key k then (k, value) :: rest else (k, v) :: insert key value rest

/-- Entries in the order of their first occurrence, with the last value of each key. -/
def ofPairs (pairs : Entries) : Entries := pairs.foldl (fun es (k, v) => insert k v es) []

end Value

end Attest

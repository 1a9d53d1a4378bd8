import Attest.Value.Basic
import Attest.Fault

/-!
# Kinds of values

The six kinds of JSON and the size of a value. A value of another sort has no kind; asking for it
is a fault.

## Main definitions

* `Kind`, `Kind.name`, `Kind.ofName?` — the kinds and their names
* `Value.kind` — the kind of a value; a truth value is no number
* `Value.size` — the number of elements, entries or characters
* `Value.typeName` — the name of a value's type in diagnostics
* `Value.elements` — what a value gives one after the other
* `Value.unhashable?` — why a value cannot be a key
-/

namespace Attest

/-- The kinds of JSON values. -/
inductive Kind where
  | null
  | bool
  | number
  | string
  | array
  | object
  deriving DecidableEq, Repr, Inhabited

namespace Kind

def name : Kind → String
  | .null => "null"
  | .bool => "bool"
  | .number => "number"
  | .string => "string"
  | .array => "array"
  | .object => "object"

def all : List Kind := [.null, .bool, .number, .string, .array, .object]

def ofName? (s : String) : Option Kind := all.find? (·.name == s)

end Kind

namespace Value

/-- The name of a value's type in diagnostics. -/
def typeName : Value → String
  | .null => "NoneType"
  | .bool _ => "bool"
  | .int _ => "int"
  | .float _ => "float"
  | .str _ => "str"
  | .array _ .list _ => "list"
  | .array _ .tuple _ => "tuple"
  | .object _ .plain _ => "dict"
  | .object _ .view _ => "ProxyMapping"
  | .set _ => "set"
  | .bytes _ => "bytes"
  | .date _ => "date"
  | .timestamp _ => "datetime"
  | .pattern .. => "Pattern"
  | .missing => "_Missing"

mutual

/-- The type that keeps a value from being a key: only what cannot change is one. -/
def unhashable? : Value → Option String
  | .array _ .list _ => some "list"
  | .array _ .tuple items => unhashableAmong? items
  | .object _ .plain _ => some "dict"
  | .object _ .view _ => some "ProxyMapping"
  | .set _ => some "set"
  | _ => none

def unhashableAmong? : List Value → Option String
  | [] => none
  | v :: rest =>
    match unhashable? v with
    | some name => some name
    | none => unhashableAmong? rest

end

/-- The kind of a JSON value. -/
def kind (v : Value) : Except Fault Kind :=
  match v with
  | .null => .ok .null
  | .bool _ => .ok .bool
  | .int _ | .float _ => .ok .number
  | .str _ => .ok .string
  | .array .. => .ok .array
  | .object .. => .ok .object
  | v => .error (.notJson v.typeName)

/-- The size of an array, object or string; other kinds have none. -/
def size (v : Value) : Except Fault (Option Nat) :=
  match v with
  | .array _ _ items => .ok (some items.length)
  | .object _ _ entries => .ok (some entries.length)
  | .str s => .ok (some s.length)
  | v => v.kind.map fun _ => none

/-- What a value gives one after the other. -/
def elements (v : Value) : Except Fault (List Value) :=
  match v with
  | .array _ _ items => .ok items
  | .object _ _ entries => .ok (entries.map Prod.fst)
  | .set members => .ok members
  | .str s => .ok (s.toList.map fun c => .str (String.singleton c))
  | .bytes data => .ok (data.map fun b => .int b.toNat)
  | v => .error (.unsuitable s!"'{v.typeName}' object is not iterable")

/-- Whether a value counts as true where a truth value is wanted. -/
def isTruthy : Value → Bool
  | .null => false
  | .bool b => b
  | .int n => n != 0
  | .float x => !x.isZero
  | .str s => !s.isEmpty
  | .array _ _ items => !items.isEmpty
  | .object _ _ entries => !entries.isEmpty
  | .set members => !members.isEmpty
  | .bytes data => !data.isEmpty
  | _ => true

end Value

end Attest

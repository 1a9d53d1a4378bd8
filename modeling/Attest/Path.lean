import Attest.Value.Display

/-!
# Slash paths

A path is a sequence of segments between slashes, such as `/crew/0/name`. A segment names the key
of an object or, written as an integer, the index of an array; negative indexes count from the
end. Empty segments do not count, so slashes at the ends and repeated ones have no meaning, but a
path with a slash in front starts from the root of the document.

## Main definitions

* `Path.segments`, `Path.isAbsolute` — the parts of a path
* `Path.index?` — the index that a segment stands for
* `Path.follow` — the value that a path leads to
* `Path.followFrom` — the same, from the root if the path is absolute
-/

namespace Attest

namespace Path

/-! ### Segments -/

/-- The pieces of a text between slashes, empty ones included. -/
def pieces : List Char → List (List Char)
  | [] => [[]]
  | c :: rest =>
    if c = '/' then [] :: pieces rest
    else match pieces rest with
      | [] => [[c]]
      | piece :: others => (c :: piece) :: others

/-- The segments of a path. -/
def segmentsOf (path : List Char) : List (List Char) := (pieces path).filter (· ≠ [])

def segments (path : String) : List String := (segmentsOf path.toList).map String.ofList

def isAbsolute (path : String) : Bool := path.toList.head? == some '/'

/-! ### Indexes -/

def isIndexDigit (c : Char) : Bool := '0' ≤ c && c ≤ '9'

def indexMagnitude (digits : List Char) : Nat :=
  digits.foldl (fun n c => 10 * n + (c.toNat - '0'.toNat)) 0

/-- A sign, if any, and the digits of a segment that has the form of an index. -/
def indexParts? : List Char → Option (Bool × List Char)
  | '-' :: digits => if digits ≠ [] ∧ digits.all isIndexDigit then some (true, digits) else none
  | digits => if digits ≠ [] ∧ digits.all isIndexDigit then some (false, digits) else none

/-- The index that a segment stands for, if it has the form of one. -/
def index? (segment : List Char) : Option (Except Fault Int) :=
  (indexParts? segment).map fun (negative, digits) =>
    if digitLimit < digits.length then .error (.tooManyDigits (some digits.length))
    else
      let n : Int := indexMagnitude digits
      .ok (if negative then -n else n)

/-- The element at an index, counted from the end if it is negative. -/
def elementAt? (items : List Value) (index : Int) : Option Value :=
  let position := if index < 0 then index + items.length else index
  if 0 ≤ position then items[position.toNat]? else none

/-! ### Resolution -/

/-- One step down from a value. -/
def descend (v : Value) (segment : List Char) : Except Fault (Option Value) :=
  match v with
  | .object _ _ entries => .ok (Value.field? (String.ofList segment) entries)
  | .array _ _ items =>
    match index? segment with
    | some index => index.map (elementAt? items)
    | none => .ok none
  | _ => .ok none

/-- The value that the segments lead to. -/
def walk (v : Value) : List (List Char) → Except Fault (Option Value)
  | [] => .ok (some v)
  | segment :: rest => do
    match ← descend v segment with
    | some next => walk next rest
    | none => return none

/-- The value that a path leads to; `none` if some segment cannot be followed. -/
def follow (v : Value) (path : String) : Except Fault (Option Value) :=
  walk v (segmentsOf path.toList)

/-- An absolute path starts from the root, any other one from the candidate. -/
def followFrom (candidate root : Value) (path : String) : Except Fault (Option Value) :=
  follow (if isAbsolute path then root else candidate) path

end Path

end Attest

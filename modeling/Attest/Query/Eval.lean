import Attest.Query.Basic
import Attest.Query.Parser
import Attest.Value.Kind

/-!
# Evaluating queries

A match is a value together with the values on the way to it, so that a query can go back to the
parent and to the start. Fields are found in objects, indexes and slices in arrays, and a star in
both; what is not found gives no match.

## Main definitions

* `Query.Match` — a value and its ancestors
* `Query.Match.tree` — a match and all its descendants in pre-order
* `Query.eval`, `Query.select` — the matches of a query, and their values
* `Query.engine` — a package that finds them
-/

namespace Attest

namespace Query

/-- A value that was reached, with the values above it, the nearest first. -/
structure Match where
  value : Value
  above : List Value
  deriving Repr, Inhabited

namespace Match

def below (m : Match) (v : Value) : Match := ⟨v, m.value :: m.above⟩

/-- The value at which the query started. -/
def start (m : Match) : Match := ⟨m.above.getLast?.getD m.value, []⟩

/-- All elements or entries. -/
def children (m : Match) : List Match :=
  match m.value with
  | .array _ _ items => items.map m.below
  | .object _ _ entries => entries.map fun (_, v) => m.below v
  | _ => []

mutual

/-- A value reached below others, and all its descendants, in pre-order. -/
def treeOf (above : List Value) : Value → List Match
  | .array node form items =>
    ⟨.array node form items, above⟩ :: treeOfItems (.array node form items :: above) items
  | .object node form entries =>
    ⟨.object node form entries, above⟩
      :: treeOfEntries (.object node form entries :: above) entries
  | v => [⟨v, above⟩]

def treeOfItems (above : List Value) : List Value → List Match
  | [] => []
  | v :: rest => treeOf above v ++ treeOfItems above rest

def treeOfEntries (above : List Value) : Entries → List Match
  | [] => []
  | (_, v) :: rest => treeOf above v ++ treeOfEntries above rest

end

/-- A match and all its descendants, in pre-order. -/
def tree (m : Match) : List Match := treeOf m.above m.value

/-- The entry under a name. -/
def field (m : Match) (name : String) : List Match :=
  match m.value with
  | .object _ _ entries => ((Value.field? name entries).map m.below).toList
  | _ => []

/-- The element at an index, counted from the end if it is negative. -/
def element (m : Match) (index : Int) : List Match :=
  match m.value with
  | .array _ _ items =>
    let position := if index < 0 then index + items.length else index
    if 0 ≤ position then (items[position.toNat]?.map m.below).toList else []
  | _ => []

end Match

/-! ### Slices -/

/-- A bound of a slice, counted from the end if it is negative, moved into the given limits. -/
def sliceBound (size low high : Int) (bound : Int) : Int :=
  let n := if bound < 0 then bound + size else bound
  max low (min high n)

/-- The positions that a slice takes from an array of a size. A step of 0 takes none. -/
def slicePositions (size : Nat) (first last step : Option Int) : List Nat :=
  let n : Int := size
  let step := step.getD 1
  if 0 < step then
    let low := (first.map (sliceBound n 0 n)).getD 0
    let high := (last.map (sliceBound n 0 n)).getD n
    let count := (high - low + step - 1) / step
    (List.range count.toNat).map fun (i : Nat) => (low + step * i).toNat
  else if step < 0 then
    let high := (first.map (sliceBound n (-1) (n - 1))).getD (n - 1)
    let low := (last.map (sliceBound n (-1) (n - 1))).getD (-1)
    let count := (high - low - step - 1) / (-step)
    (List.range count.toNat).map fun (i : Nat) => (high + step * i).toNat
  else []

def Match.slice (m : Match) (first last step : Option Int) : List Match :=
  match m.value with
  | .array _ _ items =>
    (slicePositions items.length first last step).filterMap fun i => items[i]?.map m.below
  | _ => []

/-! ### Evaluation -/

/-- The results of a function on each element, joined. -/
def collect {α β : Type} (f : α → Except Fault (List β)) : List α → Except Fault (List β)
  | [] => .ok []
  | x :: rest => do
    let ys ← f x
    return ys ++ (← collect f rest)

/-- The matches of a query from a match on. -/
def eval : Query → Match → Except Fault (List Match)
  | .root, m => .ok [m.start]
  | .this, m => .ok [m]
  | .parent, m =>
    match m.above with
    | v :: above => .ok [⟨v, above⟩]
    | [] => .error .noParent
  | .any, m => .ok m.children
  | .fields names, m => .ok (names.flatMap m.field)
  | .indexes positions, m => .ok (positions.flatMap m.element)
  | .slice first last step, m => .ok (m.slice first last step)
  | .child left right, m => do collect (eval right) (← eval left m)
  | .descendants left right, m => do
    collect (fun found => collect (eval right) found.tree) (← eval left m)
  | .union left right, m => do
    let found ← eval left m
    return found ++ (← eval right m)
  | .intersection .., _ => .error .unsupportedQuery
  | .whereHolds left right, m => do
    collect (fun found => do
      return if (← eval right found).isEmpty then [] else [found]) (← eval left m)
  | .whereFails left right, m => do
    collect (fun found => do
      return if (← eval right found).isEmpty then [found] else []) (← eval left m)

/-- The values that a query finds from a candidate on. -/
def select (q : Query) (candidate : Value) : Except Fault (List Value) :=
  (eval q ⟨candidate, []⟩).map (·.map Match.value)

/-- A package for such queries. -/
def engine : QueryEngine
  | .str text =>
    match parse text with
    | .ok query => .ok query.select
    | .error (.message problem) => .error (.malformed problem)
    | .error (.tooManyDigits count) => .error (.interrupted (.tooManyDigits (some count)))
  | v => .error (.interrupted (.unsuitable s!"expected string, got '{v.typeName}'"))

end Query

end Attest

import Attest.Text.Quoted
import Attest.Value.Kind

/-!
# The order of keys

Strings are ordered by their characters, numbers by size, dates and moments by time. A
not-a-number comes before no number and none comes before it. Keys of different sorts have no
order, and sorting them is a fault.

## Main definitions

* `Value.compareKeys?` — the order of two keys
* `Value.sortEntries`, `Value.sortKeys` — sorting
-/

namespace Attest

namespace Value

/-- The order of two lists by their first difference. -/
def compareLists {α : Type} (compare : α → α → Ordering) : List α → List α → Ordering
  | [], [] => .eq
  | [], _ :: _ => .lt
  | _ :: _, [] => .gt
  | a :: as, b :: bs => (compare a b).then (compareLists compare as bs)

/-- The order of two keys; `none` if they cannot be ordered. -/
def compareKeys? (a b : Value) : Option Ordering :=
  match a, b with
  | .str x, .str y => some (compare x y)
  | .bytes x, .bytes y => some (compareLists (fun m n => compare m.toNat n.toNat) x y)
  | .date x, .date y => some (compare x.toDays y.toDays)
  | .timestamp x, .timestamp y =>
    if x.offset.isSome = y.offset.isSome then some (compare x.micros y.micros) else none
  | a, b =>
    match a.number?, b.number? with
    | some x, some y => some ((compareNumbers? x y).getD .gt)
    | _, _ => none

/-- Puts an entry in its place among sorted ones. -/
def placeEntry {α : Type} (entry : Value × α) : List (Value × α) → Except Fault (List (Value × α))
  | [] => .ok [entry]
  | other :: rest =>
    match compareKeys? entry.1 other.1 with
    | some .lt => .ok (entry :: other :: rest)
    | some _ => do return other :: (← placeEntry entry rest)
    | none => .error (.unsuitable ("'<' not supported between instances of "
        ++ quoteText entry.1.typeName ++ " and " ++ quoteText other.1.typeName))

/-- The entries in the order of their keys, which must be of one sort. -/
def sortEntries {α : Type} (entries : List (Value × α)) : Except Fault (List (Value × α)) :=
  entries.foldlM (fun sorted entry => placeEntry entry sorted) []

/-- Keys in their order. -/
def sortKeys (keys : List Value) : Except Fault (List Value) :=
  (sortEntries (keys.map fun k => (k, ()))).map (·.map Prod.fst)

end Value

end Attest

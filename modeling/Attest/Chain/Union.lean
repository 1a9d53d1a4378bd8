import Attest.Value.Equality

/-!
# The union of candidate lists

Branches that passed are joined by putting their candidates one after the other and keeping the
first occurrence of each. Arrays and objects are one candidate if they are one node of the
document; other values have no identity and are one candidate if they are equal.

## Main definitions

* `Value.sameCandidate` — whether two candidates are one
* `unite` — the union
-/

namespace Attest

namespace Value

/-- The node of an array or object. -/
def node? : Value → Option NodeId
  | .array node _ _ => some node
  | .object node _ _ => some node
  | _ => none

/-- Whether two candidates are one: by node if both have one, by equality if neither has. -/
def sameCandidate (a b : Value) : Except Fault Bool :=
  match a.node?, b.node? with
  | some x, some y => .ok (x == y)
  | none, none => equals a b
  | _, _ => .ok false

end Value

/-- Whether a value is one of the candidates seen before, the earliest of which is tried first. -/
def seenBefore (v : Value) : List Value → Except Fault Bool
  | [] => .ok false
  | other :: rest => do
    if ← v.sameCandidate other then return true else seenBefore v rest

/-- Add those of the values that have not been seen, in order. -/
def uniteFrom (seen : List Value) : List Value → Except Fault (List Value)
  | [] => .ok seen
  | v :: rest => do
    if ← seenBefore v seen then uniteFrom seen rest else uniteFrom (seen ++ [v]) rest

/-- The first occurrences in the groups, one group after the other. -/
def unite (groups : List (List Value)) : Except Fault (List Value) := uniteFrom [] groups.flatten

end Attest

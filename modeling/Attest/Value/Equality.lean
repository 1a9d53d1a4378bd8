import Attest.Value.Kind

/-!
# Equality of JSON values

Two values are equal when they have one kind and the same content. Numbers are compared after
rounding to binary64, and exactly when one of them is beyond its range; arrays element by element;
objects by their key sets and the values under them, whatever the order of the keys.

## Main definitions

* `Value.numbersEqual` — equality of numbers
* `Value.equals` — equality of values; a fault if a compared part is not a JSON value
-/

namespace Attest

namespace Value

/-- A number rounded to binary64; `none` when it is an integer beyond the range. -/
def toDouble? : Int ⊕ Double → Option Double
  | .inl n => Double.ofInt? n
  | .inr x => some x

/-- Numbers are equal when their roundings are; beyond the range they are compared exactly. -/
def numbersEqual (a b : Int ⊕ Double) : Bool :=
  match toDouble? a, toDouble? b with
  | some x, some y => x.eq y
  | _, _ => compareNumbers? a b == some .eq

/-- Whether two objects have the same keys. -/
def sameKeySet (a b : Entries) : Bool :=
  a.length == b.length && a.all fun (k, _) => (lookup k b).isSome

mutual

/-- Equality of JSON values, decided from left to right up to the first difference. -/
def equals (a b : Value) : Except Fault Bool :=
  match a, b with
  | .null, .null => .ok true
  | .bool x, .bool y => .ok (x == y)
  | .str x, .str y => .ok (x == y)
  | .array _ _ xs, .array _ _ ys =>
    if xs.length == ys.length then equalItems xs ys else .ok false
  | .object _ _ xs, .object _ _ ys =>
    if sameKeySet xs ys then equalEntries xs ys else .ok false
  | a, b => do
    let kindA ← a.kind
    let kindB ← b.kind
    if kindA != kindB then return false
    match a.number?, b.number? with
    | some x, some y => return numbersEqual x y
    | _, _ => return false

def equalItems : List Value → List Value → Except Fault Bool
  | x :: xs, y :: ys => do
    if ← equals x y then equalItems xs ys else return false
  | _, _ => .ok true

/-- Every value of the first object equals the one under the same key of the second. -/
def equalEntries : Entries → Entries → Except Fault Bool
  | [], _ => .ok true
  | (k, v) :: rest, other =>
    match lookup k other with
    | some w => do
      if ← equals v w then equalEntries rest other else return false
    | none => .ok false

end

end Value

end Attest

import Attest.Step.Affirm
import Attest.Step.Select

/-!
# Operations

The operations of a chain as data: which step to queue, with its arguments. Making the step can
already go wrong, since its description shows the arguments.

## Main definitions

* `Operation` — a step to be queued
* `Operation.step` — the step, for the root of a document and a greatest length of shown values
* `kindOf`, `kindsOf` — the kinds that arguments name
-/

namespace Attest

/-- A step to be queued on a chain. -/
inductive Operation where
  | atPath (path : Value)
  | withObjects
  /-- By a query, which is put to a package. -/
  | select (queries : QueryEngine) (expression : Value)
  | containing (key expected : Value)
  | matching (criteria : Entries)
  | isKind (kind : Kind)
  | isOneOfKinds (kinds : List Kind)
  | isEmpty
  | isNotEmpty
  | hasSize (n : Value)
  | hasElement (element : Value)
  | mustBe (expected : Value)
  | mustNotBe (unexpected : Value)
  | mustContain (path : Value) (expected : Option Value)
  | mustNotContain (path : Value) (unexpected : Option Value)
  | mustBeginWith (affix : Value)
  | mustEndWith (affix : Value)
  | mustSatisfy (description : Value) (predicate : Predicate)
  | mustMatch (pattern : Value)
  | count (relation : Relation) (n : Value)

/-- The step of an operation. -/
def Operation.step (root : Value) (limit : Int) : Operation → Except Fault Step
  | .atPath path => Step.atPath path root
  | .withObjects => .ok Step.withObjects
  | .select queries expression => Step.select queries expression
  | .containing key expected => Step.containing key expected
  | .matching criteria => Step.matching criteria
  | .isKind kind => .ok (Step.isKind kind)
  | .isOneOfKinds kinds => .ok (Step.isOneOfKinds kinds)
  | .isEmpty => .ok Step.isEmpty
  | .isNotEmpty => .ok Step.isNotEmpty
  | .hasSize n => Step.hasSize n
  | .hasElement element => Step.hasElement limit element
  | .mustBe expected => Step.mustBe limit expected
  | .mustNotBe unexpected => Step.mustNotBe limit unexpected
  | .mustContain path expected => Step.mustContain limit root path expected
  | .mustNotContain path unexpected => Step.mustNotContain limit root path unexpected
  | .mustBeginWith affix => Step.mustBeginWith affix
  | .mustEndWith affix => Step.mustEndWith affix
  | .mustSatisfy description predicate => Step.mustSatisfy description predicate
  | .mustMatch pattern => Step.mustMatch pattern
  | .count relation n => Step.count relation n

/-! ### Arguments -/

/-- The kind that a value names. -/
def kindOf (v : Value) : Except Fault Kind :=
  let named := match v with
    | .str s => Kind.ofName? s
    | _ => none
  match named with
  | some kind => .ok kind
  | none => do throw (.unknownKind (← v.display))

def kindsOfAll : List Value → Except Fault (List Kind)
  | [] => .ok []
  | v :: rest => do
    let kind ← kindOf v
    return kind :: (← kindsOfAll rest)

/-- The kinds that the elements of a value name. -/
def kindsOf (v : Value) : Except Fault (List Kind) := do kindsOfAll (← v.elements)

/-- An expected value, unless it is the marker for one that was not given. -/
def expectation : Value → Option Value
  | .missing => none
  | v => some v

end Attest

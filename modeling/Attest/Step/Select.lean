import Attest.Path
import Attest.Query.Basic
import Attest.Step.Basic
import Attest.Value.Equality

/-!
# Selectors and filters

Selectors put parts of the candidates in their place. A selector that fails leaves no candidate,
so what comes after it cannot pass by accident on the old ones. Filters keep those candidates that
are objects with given entries.

## Main definitions

* `Step.atPath`, `Step.withObjects`, `Step.select` — by path, by kind, by query
* `Step.containing`, `Step.matching` — by one entry, by several entries
-/

namespace Attest

/-- The text of a path. -/
def pathText : Value → Except Fault String
  | .str path => .ok path
  | .bytes _ => .error (.unsuitable "startswith first arg must be bytes or a tuple of bytes, not str")
  | v => .error (.noSuchPart s!"'{v.typeName}' object has no attribute 'startswith'")

/-- The values that a path leads to, without those candidates from which it leads nowhere. -/
def followEach (path : String) : List Value → Except Fault (List Value)
  | [] => .ok []
  | v :: rest => do
    let found ← Path.follow v path
    let others ← followEach path rest
    return match found with
      | some x => x :: others
      | none => others

/-- The elements that are objects. -/
def objectsIn : List Value → Except Fault (List Value)
  | [] => .ok []
  | v :: rest => do
    let kind ← v.kind
    let others ← objectsIn rest
    return if kind = .object then v :: others else others

/-- The objects in all candidates, or the first candidate that is no array and its kind. -/
def objectsOf : Nat → List Value → Except Fault (List Value ⊕ (Nat × Kind))
  | _, [] => .ok (.inl [])
  | index, v :: rest => do
    let kind ← v.kind
    match v with
    | .array _ _ items =>
      let found ← objectsIn items
      return match ← objectsOf (index + 1) rest with
        | .inl others => .inl (found ++ others)
        | .inr wrong => .inr wrong
    | _ => return .inr (index, kind)

/-- The values that a query finds in all candidates. -/
def selectEach (find : Finder) : List Value → Except Fault (List Value)
  | [] => .ok []
  | v :: rest => do
    let found ← find v
    return found ++ (← selectEach find rest)

/-- Whether a value is an object with an entry. -/
def holdsEntry (key expected candidate : Value) : Except Fault Bool := do
  if (← candidate.kind) = .object then
    match candidate, key.unhashable? with
    | _, some name => throw (.unsuitable s!"unhashable type: '{name}'")
    | .object _ _ entries, none =>
      match Value.lookup key entries with
      | some actual => Value.equals actual expected
      | none => return false
    | _, none => return false
  else return false

/-- The candidates that pass a test. -/
def keep (test : Value → Except Fault Bool) : List Value → Except Fault (List Value)
  | [] => .ok []
  | v :: rest => do
    let kept ← test v
    let others ← keep test rest
    return if kept then v :: others else others

/-- The candidates that have all the entries, narrowed down entry by entry. -/
def keepMatching : Entries → List Value → Except Fault (List Value)
  | [], candidates => .ok candidates
  | (key, expected) :: rest, candidates => do
    keepMatching rest (← keep (holdsEntry key expected) candidates)

def keptMessage (kept before : Nat) : String :=
  "kept " ++ toString kept ++ " of " ++ toString before

namespace Step

/-- Go from every candidate, or from the root if the path is absolute, to a part of it. It fails
if the path leads nowhere from any of them. -/
def atPath (path : Value) (root : Value) : Except Fault Step := do
  let shown ← path.label
  return ⟨"at " ++ shown, fun candidates => do
    let path ← pathText path
    let examined := if Path.isAbsolute path then [root] else candidates
    let found ← followEach path examined
    return if found.length ≠ examined.length then
        ⟨false, "path not found for " ++ toString (examined.length - found.length) ++ " of "
          ++ counted examined.length, []⟩
      else ⟨true, "selected " ++ counted found.length, found⟩⟩

/-- Replace arrays by the objects in them. It fails at the first candidate that is no array. -/
def withObjects : Step :=
  ⟨"with_objects", fun candidates =>
    if candidates.isEmpty then .ok ⟨false, emptyMessage, candidates⟩
    else do
      return match ← objectsOf 0 candidates with
        | .inl found => ⟨true, "selected " ++ counted found.length, found⟩
        | .inr (index, kind) =>
          ⟨false, s!"[{index}] expected array, got {kind.name}", []⟩⟩

/-- Replace every candidate by what a query finds in it. -/
def select (queries : QueryEngine) (expression : Value) : Except Fault Step := do
  let shown ← expression.label
  return ⟨"select " ++ shown, fun candidates =>
    if candidates.isEmpty then .ok ⟨false, emptyMessage, candidates⟩
    else
      match queries expression with
      | .error (.malformed problem) =>
        .ok ⟨false, "invalid JSONPath expression: " ++ problem, []⟩
      | .error (.interrupted fault) => .error fault
      | .ok find => do
        let found ← selectEach find candidates
        return ⟨true, "selected " ++ counted found.length, found⟩⟩

/-- Keep the objects whose entry under a key equals a value. -/
def containing (key expected : Value) : Except Fault Step := do
  let shownKey ← key.label
  let shown ← expected.excerpt Value.defaultLimit
  return ⟨"containing " ++ shownKey ++ "=" ++ shown, fun candidates => do
    let kept ← keep (holdsEntry key expected) candidates
    return ⟨true, keptMessage kept.length candidates.length, kept⟩⟩

/-- Keep the objects that have every one of the entries. -/
def matching (criteria : Entries) : Except Fault Step := do
  let shown ← (Value.dict criteria).excerpt Value.defaultLimit
  return ⟨"matching " ++ shown, fun candidates => do
    let kept ← keepMatching criteria candidates
    return ⟨true, keptMessage kept.length candidates.length, kept⟩⟩

end Step

end Attest

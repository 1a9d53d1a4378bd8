import Attest.Pattern.Match
import Attest.Step.Select

/-!
# Assertions

Steps that judge the candidates and leave them as they are. An assertion passes iff there is a
candidate and every one of them is as expected.

## Main definitions

* `Step.isKind`, `Step.isOneOfKinds` — by kind
* `Step.isEmpty`, `Step.isNotEmpty`, `Step.hasSize`, `Step.hasElement` — by contents
* `Step.mustBe`, `Step.mustNotBe`, `Step.mustContain`, `Step.mustNotContain` — by equality
* `Step.mustBeginWith`, `Step.mustEndWith`, `Step.mustMatch` — texts
* `Step.mustSatisfy` — by a predicate
* `Step.count` — by the number of candidates
-/

namespace Attest

/-! ### Kinds and sizes -/

/-- The size of a value, or why it has none. -/
def sizeOr (v : Value) : Except Fault (Nat ⊕ String) := do
  match ← v.size with
  | some n => return .inl n
  | none => return .inr s!"expected array, object or string, got {(← v.kind).name}"

/-- A check of the size of a candidate. -/
def sizeCheck (test : Nat → Option String) : Check := fun v => do
  match ← sizeOr v with
  | .inl n => return test n
  | .inr problem => return some problem

/-- Whether a number is the given size. Truth values count as numbers. -/
def isSize (n : Value) (size : Nat) : Bool :=
  match n.number? with
  | some x => Value.compareNumbers? (.inl size) x == some .eq
  | none => false

namespace Step

def isKind (expected : Kind) : Step :=
  assertion ("is_" ++ expected.name) ("all " ++ expected.name) fun v => do
    let actual ← v.kind
    return if actual = expected then none
      else some s!"expected {expected.name}, got {actual.name}"

def isOneOfKinds (allowed : List Kind) : Step :=
  let names := ", ".intercalate (allowed.map Kind.name)
  assertion s!"is_one_of_types [{names}]" "types ok" fun v => do
    let actual ← v.kind
    return if allowed.contains actual then none
      else some s!"expected one of [{names}], got {actual.name}"

def isEmpty : Step :=
  assertion "is_empty" "all empty" <| sizeCheck fun n =>
    if n = 0 then none else some s!"expected empty, got size {n}"

def isNotEmpty : Step :=
  assertion "is_not_empty" "all non-empty" <| sizeCheck fun n =>
    if 0 < n then none else some "expected non-empty, got size 0"

def hasSize (n : Value) : Except Fault Step := do
  let shown ← n.label
  return assertion ("has_size " ++ shown) ("all of size " ++ shown) <| sizeCheck fun size =>
    if isSize n size then none else some s!"expected size {shown}, got {size}"

end Step

/-! ### Equality -/

/-- Whether an element of the list equals a value. -/
def anyEquals (expected : Value) : List Value → Except Fault Bool
  | [] => .ok false
  | v :: rest => do
    if ← Value.equals v expected then return true else anyEquals expected rest

/-- Whether a text occurs in another one. -/
def occursIn (part : List Char) : List Char → Bool
  | [] => part.isEmpty
  | c :: rest => part.isPrefixOf (c :: rest) || occursIn part rest

namespace Step

/-- Every array must have an equal element, every string must have the text in it. -/
def hasElement (limit : Int) (element : Value) : Except Fault Step := do
  let shown ← element.excerpt limit
  return assertion ("has_element " ++ shown) "element present" fun v => do
    match v with
    | .array _ _ items =>
      return if ← anyEquals element items then none else some s!"array does not contain {shown}"
    | .str text =>
      match element with
      | .str part =>
        if occursIn part.toList text.toList then return none
        else return some ((← v.excerpt limit) ++ " does not contain " ++ shown)
      | _ => return some s!"cannot look for non-string {shown} in a string"
    | _ => return some s!"expected array or string, got {(← v.kind).name}"

def mustBe (limit : Int) (expected : Value) : Except Fault Step := do
  let shown ← expected.excerpt limit
  return assertion ("must_be " ++ shown) "equal" fun v => do
    if ← Value.equals v expected then return none
    else return some ("expected " ++ shown ++ ", got " ++ (← v.excerpt limit))

def mustNotBe (limit : Int) (unexpected : Value) : Except Fault Step := do
  let shown ← unexpected.excerpt limit
  return assertion ("must_not_be " ++ shown) "not equal" fun v => do
    return if ← Value.equals v unexpected then some s!"expected anything but {shown}" else none

end Step

/-- The text of a path, with the value expected there if one is given. -/
def expectationText (limit : Int) (path : Value) (expected : Option Value) :
    Except Fault String := do
  let shown ← path.label
  match expected with
  | some v => return shown ++ "=" ++ (← v.excerpt limit)
  | none => return shown

/-- What a path leads to, from a candidate or from the root. -/
def reach (root : Value) (path : Value) (candidate : Value) : Except Fault (Option Value) := do
  Path.followFrom candidate root (← pathText path)

namespace Step

/-- The path must lead somewhere from every candidate; if a value is given, to an equal one. -/
def mustContain (limit : Int) (root path : Value) (expected : Option Value) :
    Except Fault Step := do
  let shownPath ← path.label
  return assertion ("must_contain " ++ (← expectationText limit path expected)) "contained"
    fun v => do
      match ← reach root path v, expected with
      | none, _ => return some ("path " ++ shownPath ++ " not found")
      | some _, none => return none
      | some actual, some wanted =>
        if ← Value.equals actual wanted then return none
        else return some ("expected " ++ (← wanted.excerpt limit) ++ " at " ++ shownPath ++ ", got "
          ++ (← actual.excerpt limit))

/-- The path must lead nowhere from any candidate; if a value is given, not to an equal one. -/
def mustNotContain (limit : Int) (root path : Value) (unexpected : Option Value) :
    Except Fault Step := do
  let shownPath ← path.label
  return assertion ("must_not_contain " ++ (← expectationText limit path unexpected))
    "not contained" fun v => do
      match ← reach root path v, unexpected with
      | none, _ => return none
      | some _, none => return some ("path " ++ shownPath ++ " exists")
      | some actual, some wanted =>
        if ← Value.equals actual wanted then
          return some ("found " ++ (← wanted.excerpt limit) ++ " at " ++ shownPath)
        else return none

end Step

/-! ### Texts -/

/-- A check that holds for strings only. -/
def textCheck (test : String → Except Fault Bool) (problem : String) : Check := fun v => do
  match v with
  | .str text =>
    if ← test text then return none
    else return some ((← v.excerpt Value.defaultLimit) ++ " " ++ problem)
  | _ => return some s!"expected string, got {(← v.kind).name}"

/-- The ends of a text. -/
inductive End where
  | start
  | stop
  deriving DecidableEq, Repr, Inhabited

def End.holds (e : End) (affix text : String) : Bool :=
  match e with
  | .start => affix.toList.isPrefixOf text.toList
  | .stop => affix.toList.isSuffixOf text.toList

def End.method : End → String
  | .start => "startswith"
  | .stop => "endswith"

/-- Whether a text has one of the affixes. -/
def hasAffixAmong (e : End) (text : String) : List Value → Except Fault Bool
  | [] => .ok false
  | .str affix :: rest =>
    if e.holds affix text then .ok true else hasAffixAmong e text rest
  | v :: _ =>
    .error (.unsuitable s!"tuple for {e.method} must only contain str, not {v.typeName}")

/-- Whether a text has an affix, or one of several. -/
def hasAffix (e : End) (affix : Value) (text : String) : Except Fault Bool :=
  match affix with
  | .str s => .ok (e.holds s text)
  | .array _ .tuple items => hasAffixAmong e text items
  | v => .error (.unsuitable
    s!"{e.method} first arg must be str or a tuple of str, not {v.typeName}")

/-- A pattern, or why its text is none. -/
inductive Readiness where
  | ready (pattern : Pattern.Compiled)
  | broken (problem : String)

def patternFault (source : List Char) (e : Pattern.Error) : Except Fault Readiness :=
  match e with
  | .place .. | .whole _ => .ok (.broken (e.message source))
  | .repetitionTooLarge => .error .repetitionTooLarge
  | .tooManyDigits count => .error (.tooManyDigits (some count))
  | .incompatibleAlphabets => .error (.outOfRange (e.message source))

def compileSource (isText : Bool) (modes : Modes) (source : List Char) :
    Except Fault Readiness :=
  match Pattern.compile isText modes source with
  | .ok pattern => .ok (.ready pattern)
  | .error e => patternFault source e

/-- The pattern that an argument stands for. -/
def patternOf (v : Value) : Except Fault Readiness :=
  match v with
  | .pattern source flags => compileSource true flags source.toList
  | .str source => compileSource true [] source.toList
  | .bytes data => compileSource false [] (data.map fun b => Char.ofNat b.toNat)
  | v =>
    match v.unhashable? with
    | some name => .ok (.broken s!"unhashable type: '{name}'")
    | none => .ok (.broken "first argument must be string or compiled pattern")

/-- Whether a text as a whole matches. A byte pattern cannot be put to a text. -/
def matchesText (pattern : Pattern.Compiled) (text : String) : Except Fault Bool :=
  if pattern.isText then .ok (pattern.matchesWhole text)
  else .error (.unsuitable "cannot use a bytes pattern on a string-like object")

namespace Step

def mustBeginWith (affix : Value) : Except Fault Step := do
  let shown ← affix.excerpt Value.defaultLimit
  return assertion ("must_begin_with " ++ shown) "prefix ok" <|
    textCheck (hasAffix .start affix) ("does not begin with " ++ shown)

def mustEndWith (affix : Value) : Except Fault Step := do
  let shown ← affix.excerpt Value.defaultLimit
  return assertion ("must_end_with " ++ shown) "suffix ok" <|
    textCheck (hasAffix .stop affix) ("does not end with " ++ shown)

/-- Every candidate must be a string that matches the pattern as a whole. A broken pattern is
noticed when the step runs. -/
def mustMatch (pattern : Value) : Except Fault Step := do
  let readiness ← patternOf pattern
  let shown ← match pattern with
    | .pattern source _ => pure source
    | v => v.label
  return ⟨"must_match_regex /" ++ shown ++ "/", fun candidates =>
    match readiness with
    | .broken problem => .ok ⟨false, "invalid regular expression: " ++ problem, candidates⟩
    | .ready compiled =>
      checkEvery (textCheck (matchesText compiled) ("does not match /" ++ shown ++ "/")) "matched"
        candidates⟩

end Step

/-! ### Predicates -/

/-- What a predicate raises instead of an answer. -/
structure Complaint where
  label : String
  text : String
  deriving DecidableEq, Repr, Inhabited

/-- A test of values from outside. -/
abbrev Predicate := Value → Except Complaint Bool

/-- Every candidate must satisfy the predicate; one that raises does not hold. -/
def Step.mustSatisfy (description : Value) (predicate : Predicate) : Except Fault Step := do
  let shown ← description.label
  return assertion ("must_satisfy " ++ shown) "satisfied" fun v => do
    match predicate v with
    | .ok true => return none
    | .ok false =>
      return some ((← v.excerpt Value.defaultLimit) ++ " does not satisfy " ++ shown)
    | .error c => return some s!"predicate raised {c.label}: {c.text}"

/-! ### Cardinality -/

/-- How the number of candidates is compared. -/
inductive Relation where
  | exactly
  | atLeast
  | atMost
  deriving DecidableEq, Repr, Inhabited

namespace Relation

def name : Relation → String
  | .exactly => "exactly"
  | .atLeast => "at_least"
  | .atMost => "at_most"

/-- The name with a blank between its words. -/
def words : Relation → String
  | .exactly => "exactly"
  | .atLeast => "at least"
  | .atMost => "at most"

/-- Whether the number of candidates is in the relation to a bound. -/
def holds (r : Relation) (size : Nat) (n : Value) : Except Fault Bool :=
  let order := n.number?.map fun x => Value.compareNumbers? (.inl size) x
  match r, order with
  | .exactly, some o => .ok (o == some .eq)
  | .exactly, none => .ok false
  | .atLeast, some o => .ok (o == some .eq || o == some .gt)
  | .atMost, some o => .ok (o == some .eq || o == some .lt)
  | .atLeast, none =>
    .error (.unsuitable s!"'>=' not supported between instances of 'int' and '{n.typeName}'")
  | .atMost, none =>
    .error (.unsuitable s!"'<=' not supported between instances of 'int' and '{n.typeName}'")

end Relation

/-- Check the number of candidates, which may be none. -/
def Step.count (relation : Relation) (n : Value) : Except Fault Step := do
  let shown ← n.label
  return ⟨relation.name ++ " " ++ shown, fun candidates => do
    let size := candidates.length
    return if ← relation.holds size n then ⟨true, counted size ++ " selected", candidates⟩
      else ⟨false, s!"expected {relation.words} {shown}, got {size}", candidates⟩⟩

end Attest

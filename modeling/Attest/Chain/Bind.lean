import Attest.Chain.Call

/-!
# Calls by name

Suites name the calls they make and give their arguments by position or by name. Binding them can
fail: there may be no call of that name, and arguments may be absent, surplus, unknown or given
twice.

## Main definitions

* `Parameter`, `bindEach` — what a call takes, and binding it
* `Call.named` — the call with a name and arguments
-/

namespace Attest

/-- A parameter of a call. -/
structure Parameter where
  name : String
  required : Bool := true
  deriving DecidableEq, Repr, Inhabited

/-- Arguments given by name. -/
abbrev NamedArguments := List (String × Value)

/-- The value of each parameter, by position first and then by name. -/
def bindEach (call : String) : List Parameter → List Value → NamedArguments →
    Except Fault (List (Option Value))
  | [], [], [] => .ok []
  | [], [], (name, _) :: _ =>
    .error (.unsuitable s!"{call}() got an unexpected keyword argument '{name}'")
  | [], _ :: _, _ => .error (.unsuitable s!"{call}() takes fewer positional arguments")
  | p :: rest, v :: args, named =>
    if (named.lookup p.name).isSome then
      .error (.unsuitable s!"{call}() got multiple values for argument '{p.name}'")
    else do return some v :: (← bindEach call rest args named)
  | p :: rest, [], named =>
    match named.lookup p.name with
    | some v => do
      return some v :: (← bindEach call rest [] (named.filter (·.1 ≠ p.name)))
    | none =>
      if p.required then
        .error (.unsuitable s!"{call}() missing 1 required positional argument: '{p.name}'")
      else do return none :: (← bindEach call rest [] named)

/-- The criteria of a filter: a mapping, if one is given, and further entries by name. -/
def criteriaOf (given : Option Value) (named : NamedArguments) : Except Fault Entries := do
  let entries ← match given with
    | none => pure []
    | some v =>
      if !v.isTruthy then pure []
      else match v with
        | .object _ _ entries => pure entries
        | v => throw (.unsuitable s!"'{v.typeName}' object is not a mapping")
  return named.foldl (fun es (name, v) => Value.insert (.str name) v es) entries

/-- Bind no argument. -/
def bindNone (call : String) (args : List Value) (named : NamedArguments) (result : Call) :
    Except Fault Call := do
  let _ ← bindEach call [] args named
  return result

/-- Bind one argument. -/
def bindOne (call parameter : String) (args : List Value) (named : NamedArguments)
    (result : Value → Except Fault Call) : Except Fault Call := do
  match ← bindEach call [⟨parameter, true⟩] args named with
  | [some v] => result v
  | _ => throw (.unsuitable s!"{call}() takes one argument")

/-- Bind two arguments, of which the second may be left out if a default is given. -/
def bindTwo (call first second : String) (default : Option Value) (args : List Value)
    (named : NamedArguments) (result : Value → Value → Except Fault Call) : Except Fault Call := do
  match ← bindEach call [⟨first, true⟩, ⟨second, default.isNone⟩] args named, default with
  | [some v, some w], _ => result v w
  | [some v, none], some w => result v w
  | _, _ => throw (.unsuitable s!"{call}() takes two arguments")

/-- The criteria given by position or by name; unknown names are entries. -/
def bindCriteria (args : List Value) (named : NamedArguments) : Except Fault Call := do
  match args with
  | [] =>
    let entries ← criteriaOf (named.lookup "criteria") (named.filter (·.1 ≠ "criteria"))
    return .queue (.matching entries)
  | [v] =>
    if (named.lookup "criteria").isSome then
      throw (.unsuitable "matching() got multiple values for argument 'criteria'")
    return .queue (.matching (← criteriaOf (some v) named))
  | _ => throw (.unsuitable "matching() takes from 1 to 2 positional arguments")

/-- The call with a name and arguments. Queries are put to a package, and predicates are found by the
values that stand for them. -/
def Call.named (queries : QueryEngine) (predicateOf : Value → Predicate) (name : String)
    (args : List Value) (named : NamedArguments) : Except Fault Call :=
  let none' (operation : Operation) : Except Fault Call :=
    bindNone name args named (.queue operation)
  let one (parameter : String) (operation : Value → Operation) : Except Fault Call :=
    bindOne name parameter args named fun v => .ok (.queue (operation v))
  match name with
  | "at" => one "path" .atPath
  | "with_objects" => none' .withObjects
  | "select" => one "expression" (.select queries)
  | "containing" =>
    bindTwo name "key" "value" none args named fun k v => .ok (.queue (.containing k v))
  | "matching" => bindCriteria args named
  | "is_type" =>
    bindOne name "json_type" args named fun v => do return .queue (.isKind (← kindOf v))
  | "is_null" => none' (.isKind .null)
  | "is_bool" => none' (.isKind .bool)
  | "is_number" => none' (.isKind .number)
  | "is_string" => none' (.isKind .string)
  | "is_array" => none' (.isKind .array)
  | "is_object" => none' (.isKind .object)
  | "is_one_of_types" =>
    bindOne name "types" args named fun v => do return .queue (.isOneOfKinds (← kindsOf v))
  | "is_empty" => none' .isEmpty
  | "is_not_empty" => none' .isNotEmpty
  | "has_size" => one "n" .hasSize
  | "has_element" => one "element" .hasElement
  | "must_be" => one "expected" .mustBe
  | "must_not_be" => one "unexpected" .mustNotBe
  | "must_contain" =>
    bindTwo name "path" "value" (some .missing) args named fun p v =>
      .ok (.queue (.mustContain p (expectation v)))
  | "must_not_contain" =>
    bindTwo name "path" "value" (some .missing) args named fun p v =>
      .ok (.queue (.mustNotContain p (expectation v)))
  | "must_begin_with" => one "prefix" .mustBeginWith
  | "must_end_with" => one "suffix" .mustEndWith
  | "must_satisfy" =>
    bindTwo name "description" "predicate" none args named fun d p =>
      .ok (.queue (.mustSatisfy d (predicateOf p)))
  | "must_match_regex" => one "pattern" .mustMatch
  | "must_selected" => one "n" (.count .exactly)
  | "either" => bindNone name args named .openBlock
  | "or_else" => bindNone name args named .nextBranch
  | "end" => bindNone name args named .closeBlock
  | "verify" => bindNone name args named .verify
  | "exactly" => bindOne name "n" args named fun v => .ok (.finish .exactly v)
  | "at_least" => bindOne name "n" args named fun v => .ok (.finish .atLeast v)
  | "at_most" => bindOne name "n" args named fun v => .ok (.finish .atMost v)
  | "trace" => bindNone name args named .trace
  | "close" => bindNone name args named .close
  | _ => .error (.noSuchPart s!"'JsonChain' object has no attribute '{name}'")

end Attest

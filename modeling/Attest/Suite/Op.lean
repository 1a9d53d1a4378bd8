/-!
# Operations of suites

The operations that can be written in a suite file, and the form of the argument of each.

## Main definitions

* `Op`, `Op.name`, `Op.ofName?` — the operations and their names
* `Op.form` — the form of an operation's argument
* `Op.endsCheck` — whether an operation ends a check
-/

namespace Attest

/-- An operation of a suite. -/
inductive Op where
  | at_
  | withObjects
  | select
  | containing
  | matching
  | isNull
  | isBool
  | isNumber
  | isString
  | isArray
  | isObject
  | isType
  | isOneOfTypes
  | isEmpty
  | isNotEmpty
  | hasSize
  | hasElement
  | mustBe
  | mustNotBe
  | mustContain
  | mustNotContain
  | mustBeginWith
  | mustEndWith
  | mustMatchRegex
  | mustSelected
  | either
  | orElse
  | end_
  | verify
  | exactly
  | atLeast
  | atMost
  deriving DecidableEq, Repr, Inhabited

/-- The form of an argument. -/
inductive Form where
  | nothing
  | count
  | text
  | kind
  | kinds
  | criteria
  /-- A key or path with a value, in a list or a mapping. -/
  | pair
  | anything
  deriving DecidableEq, Repr, Inhabited

namespace Op

def name : Op → String
  | .at_ => "at"
  | .withObjects => "with_objects"
  | .select => "select"
  | .containing => "containing"
  | .matching => "matching"
  | .isNull => "is_null"
  | .isBool => "is_bool"
  | .isNumber => "is_number"
  | .isString => "is_string"
  | .isArray => "is_array"
  | .isObject => "is_object"
  | .isType => "is_type"
  | .isOneOfTypes => "is_one_of_types"
  | .isEmpty => "is_empty"
  | .isNotEmpty => "is_not_empty"
  | .hasSize => "has_size"
  | .hasElement => "has_element"
  | .mustBe => "must_be"
  | .mustNotBe => "must_not_be"
  | .mustContain => "must_contain"
  | .mustNotContain => "must_not_contain"
  | .mustBeginWith => "must_begin_with"
  | .mustEndWith => "must_end_with"
  | .mustMatchRegex => "must_match_regex"
  | .mustSelected => "must_selected"
  | .either => "either"
  | .orElse => "or_else"
  | .end_ => "end"
  | .verify => "verify"
  | .exactly => "exactly"
  | .atLeast => "at_least"
  | .atMost => "at_most"

/-- All operations, in the order of their names. -/
def all : List Op :=
  [.at_, .atLeast, .atMost, .containing, .either, .end_, .exactly, .hasElement, .hasSize, .isArray,
    .isBool, .isEmpty, .isNotEmpty, .isNull, .isNumber, .isObject, .isOneOfTypes, .isString,
    .isType, .matching, .mustBe, .mustBeginWith, .mustContain, .mustEndWith, .mustMatchRegex,
    .mustNotBe, .mustNotContain, .mustSelected, .orElse, .select, .verify, .withObjects]

def ofName? (s : String) : Option Op := all.find? (·.name == s)

def form : Op → Form
  | .withObjects | .isNull | .isBool | .isNumber | .isString | .isArray | .isObject | .isEmpty
  | .isNotEmpty | .either | .orElse | .end_ | .verify => .nothing
  | .hasSize | .mustSelected | .exactly | .atLeast | .atMost => .count
  | .at_ | .select | .mustBeginWith | .mustEndWith | .mustMatchRegex => .text
  | .isType => .kind
  | .isOneOfTypes => .kinds
  | .matching => .criteria
  | .containing | .mustContain | .mustNotContain => .pair
  | .hasElement | .mustBe | .mustNotBe => .anything

def endsCheck : Op → Bool
  | .verify | .exactly | .atLeast | .atMost => true
  | _ => false

end Op

end Attest

import Attest.Query.Token

/-!
# Reading queries

A query is a chain of steps: names, indexes, slices and operators, joined by dots. A bracket
applies to everything before it; among the joints the single dot binds tighter than the double
one, and the bars bind tighter still.

## Main definitions

* `Query` — the tree of a query
* `Query.parse` — the query that a text stands for

## Implementation notes

Operands and joints that wait for their right side are kept on a stack. A joint goes on the stack
after those above it that bind at least as tightly have been applied; a bracket applies them all.
-/

namespace Attest

/-- The tree of a query. -/
inductive Query where
  | root
  | this
  | parent
  | any
  | fields (names : List String)
  | indexes (positions : List Int)
  | slice (first last step : Option Int)
  | child (left right : Query)
  | descendants (left right : Query)
  | union (left right : Query)
  | intersection (left right : Query)
  | whereHolds (left right : Query)
  | whereFails (left right : Query)
  deriving DecidableEq, Repr, Inhabited

namespace Query

/-- Why a text is no query. -/
inductive Problem where
  | message (text : String)
  | tooManyDigits (count : Nat)
  deriving DecidableEq, Repr, Inhabited

/-- What joins two queries. -/
inductive Joint where
  | descendants
  | child
  | union
  | intersection
  | whereHolds
  | whereFails
  deriving DecidableEq, Repr, Inhabited

namespace Joint

/-- How tightly a joint binds. -/
def level : Joint → Nat
  | .descendants => 2
  | .child => 3
  | .union => 4
  | .intersection => 5
  | .whereHolds => 6
  | .whereFails => 7

def apply : Joint → Query → Query → Query
  | .descendants => .descendants
  | .child => .child
  | .union => .union
  | .intersection => .intersection
  | .whereHolds => .whereHolds
  | .whereFails => .whereFails

def ofToken? : Token → Option Joint
  | .doubleDot => some .descendants
  | .sign '.' => some .child
  | .sign '|' => some .union
  | .sign '&' => some .intersection
  | .keyword .whereHolds => some .whereHolds
  | .keyword .whereFails => some .whereFails
  | _ => none

end Joint

/-! ### The reader -/

/-- The tokens that are left, and what comes after them. -/
structure Reading where
  rest : List Mark
  trouble : Option Trouble

/-- The trouble that a reader meets at the next token. -/
def Reading.problem (r : Reading) : Problem :=
  match r.rest, r.trouble with
  | m :: _, _ => .message s!"Parse error at {m.line}:{m.column} near token {m.token.label}"
  | [], some (.message text) => .message text
  | [], some (.tooManyDigits count) => .tooManyDigits count
  | [], none => .message "Parse error near the end of string!"

def Reading.next (r : Reading) : Reading := { r with rest := r.rest.drop 1 }

def Reading.token? (r : Reading) : Option Token := r.rest.head?.map (·.token)

/-- Require a sign. -/
def expect (c : Char) (r : Reading) : Except Problem Reading :=
  if r.token? = some (.sign c) then .ok r.next else .error r.problem

/-- More names after commas. -/
def moreNames : Nat → Reading → Except Problem (List String × Reading)
  | 0, r => .ok ([], r)
  | bound + 1, r =>
    if r.token? = some (.sign ',') then
      match r.next.token? with
      | some (.name text) => do
        let (names, r) ← moreNames bound r.next.next
        return (text :: names, r)
      | _ => .error r.next.problem
    else .ok ([], r)

/-- More numbers after commas. -/
def moreNumbers : Nat → Reading → Except Problem (List Int × Reading)
  | 0, r => .ok ([], r)
  | bound + 1, r =>
    if r.token? = some (.sign ',') then
      match r.next.token? with
      | some (.number n) => do
        let (ns, r) ← moreNumbers bound r.next.next
        return (n :: ns, r)
      | _ => .error r.next.problem
    else .ok ([], r)

/-- A number that may be left out. -/
def optionalNumber (r : Reading) : Option Int × Reading :=
  match r.token? with
  | some (.number n) => (some n, r.next)
  | _ => (none, r)

/-- The rest of a slice, from its first colon on. -/
def sliceFrom (first : Option Int) (r : Reading) : Except Problem (Query × Reading) := do
  let r ← expect ':' r
  let (last, r) := optionalNumber r
  if r.token? = some (.sign ':') then
    let (step, r) := optionalNumber r.next
    return (.slice first last step, ← expect ']' r)
  else
    return (.slice first last none, ← expect ']' r)

/-- What stands between brackets, after the opening one. -/
def bracket (r : Reading) : Except Problem (Query × Reading) :=
  match r.token? with
  | some (.name text) => do
    let (names, r) ← moreNames r.rest.length r.next
    return (.fields (text :: names), ← expect ']' r)
  | some (.sign '*') => do return (.any, ← expect ']' r.next)
  | some (.number n) =>
    if r.next.token? = some (.sign ':') then sliceFrom (some n) r.next
    else do
      let (ns, r) ← moreNumbers r.rest.length r.next
      return (.indexes (n :: ns), ← expect ']' r)
  | _ => sliceFrom none r

/-- A joint that waits for its right side, with its left side. -/
abbrev Waiting := Query × Joint

/-- Apply the joints on the stack that bind at least as tightly as a level. -/
def settle (level : Nat) : List Waiting → Query → List Waiting × Query
  | [], q => ([], q)
  | (left, joint) :: rest, q =>
    if level ≤ joint.level then settle level rest (joint.apply left q)
    else ((left, joint) :: rest, q)

mutual

/-- An operand, after which a chain goes on. -/
def operand : Nat → List Waiting → Reading → Except Problem (Query × Reading)
  | 0, _, r => .error r.problem
  | bound + 1, waiting, r =>
    match r.rest with
    | [] => .error r.problem
    | m :: _ =>
      match m.token with
      | .name text => do
        let (names, r) ← moreNames r.rest.length r.next
        continuation bound waiting (.fields (text :: names)) r
      | .number n => continuation bound waiting (.fields [toString n]) r.next
      | .sign '*' => continuation bound waiting .any r.next
      | .sign '$' => continuation bound waiting .root r.next
      | .operator "this" => continuation bound waiting .this r.next
      | .operator "parent" => continuation bound waiting .parent r.next
      | .operator text =>
        .error (.message s!"Unknown named operator `{text}` at {m.line}:{m.place}")
      | .sign '[' => do
        let (q, r) ← bracket r.next
        continuation bound waiting q r
      | .sign '(' => do
        let (q, r) ← operand bound [] r.next
        continuation bound waiting q (← expect ')' r)
      | _ => .error r.problem

/-- What follows an operand: a bracket, a joint, or the end of the chain. -/
def continuation : Nat → List Waiting → Query → Reading → Except Problem (Query × Reading)
  | 0, _, _, r => .error r.problem
  | bound + 1, waiting, q, r =>
    match r.token? with
    | some (.sign '[') => do
      let (inner, r) ← bracket r.next
      continuation bound [] (.child (settle 0 waiting q).2 inner) r
    | some token =>
      match Joint.ofToken? token with
      | some joint =>
        let (waiting, left) := settle joint.level waiting q
        operand bound ((left, joint) :: waiting) r.next
      | none => .ok ((settle 0 waiting q).2, r)
    | none =>
      if r.trouble.isSome then .error r.problem else .ok ((settle 0 waiting q).2, r)

end

/-- The query that a text stands for. -/
def parse (text : String) : Except Problem Query := do
  let (marks, trouble) := scan text
  let (q, r) ← operand (2 * marks.length + 2) [] ⟨marks, trouble⟩
  if r.rest.isEmpty then return q else throw r.problem

end Query

end Attest

import Attest.Value.Excerpt

/-!
# Steps

A chain is a queue of steps. A step is run on the current candidates and gives a verdict, a
message and the candidates for the steps after it. Selectors replace the candidates, filters
narrow them and never fail, assertions only read them.

## Main definitions

* `Step`, `Ran` — a step, and what running it gives
* `Step.assertion` — a step that checks every candidate
-/

namespace Attest

/-- What running a step gives. -/
structure Ran where
  passed : Bool
  message : String
  /-- The candidates for the next step. -/
  candidates : List Value
  deriving Repr, Inhabited

/-- A named unit of work that waits in a queue. -/
structure Step where
  /-- A short label for traces. -/
  description : String
  run : List Value → Except Fault Ran

/-- The message of a step that needs a candidate and has none. -/
def emptyMessage : String := "expected at least 1 candidate, got 0"

/-- A number of candidates in words. -/
def counted (n : Nat) : String :=
  if n = 1 then "1 candidate" else toString n ++ " candidates"

/-- A check of one candidate: the problem with it, if there is one. -/
abbrev Check := Value → Except Fault (Option String)

/-- The problems of candidates, each with the position of its candidate. -/
def problemsFrom (check : Check) : Nat → List Value → Except Fault (List String)
  | _, [] => .ok []
  | index, v :: rest => do
    let problem ← check v
    let others ← problemsFrom check (index + 1) rest
    return match problem with
      | some text => ("[" ++ toString index ++ "] " ++ text) :: others
      | none => others

/-- Check every candidate: it fails if there is none, or a problem with any of them. -/
def checkEvery (check : Check) (okMessage : String) (candidates : List Value) :
    Except Fault Ran :=
  if candidates.isEmpty then .ok ⟨false, emptyMessage, candidates⟩
  else do
    let problems ← problemsFrom check 0 candidates
    return if problems.isEmpty then ⟨true, okMessage, candidates⟩
      else ⟨false, "; ".intercalate problems, candidates⟩

namespace Step

/-- A step that checks every candidate and leaves them as they are. -/
def assertion (description okMessage : String) (check : Check) : Step :=
  ⟨description, checkEvery check okMessage⟩

end Step

end Attest

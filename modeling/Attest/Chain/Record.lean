import Attest.Outcome
import Attest.Step.Basic

/-!
# Records of a run

Running a step leaves a record; a block of alternatives leaves the records of all its branches. A
trace shows one line a step, with the branches of a block below it, indented.

## Main definitions

* `Record`, `Branch` — what running a step, or an alternative, left
* `Record.lines`, `trace` — the lines of a trace
* `allPassed`, `firstFailed?` — the verdict on several steps
-/

namespace Attest

mutual

/-- What running a step left. -/
inductive Record where
  | mk (description : String) (passed : Bool) (message : String) (branches : List Branch)

/-- What running an alternative of a block left. -/
inductive Branch where
  | mk (passed : Bool) (records : List Record)

end

namespace Record

def description : Record → String
  | .mk description _ _ _ => description

def passed : Record → Bool
  | .mk _ passed _ _ => passed

def message : Record → String
  | .mk _ _ message _ => message

def branches : Record → List Branch
  | .mk _ _ _ branches => branches

/-- The verdict and the message. -/
def text (r : Record) : String :=
  Outcome.icon r.passed ++ (if r.passed then " PASSED: " else " FAILED: ") ++ r.message

end Record

/-- Two blanks a level. -/
def indent (level : Nat) : String := String.ofList (List.replicate (2 * level) ' ')

/-- The name of an alternative in a trace. -/
def branchLabel (first : Bool) : String := if first then "either" else "or_else"

mutual

/-- The lines of a record: its own, and those of its branches below it. -/
def Record.lines (level : Nat) : Record → List String
  | .mk description passed message branches =>
    (indent level ++ Outcome.icon passed ++ " " ++ description ++ ": " ++ message)
      :: branchLines (level + 1) true branches

def branchLines (level : Nat) (first : Bool) : List Branch → List String
  | [] => []
  | b :: rest => Branch.lines level first b ++ branchLines level false rest

def Branch.lines (level : Nat) (first : Bool) : Branch → List String
  | .mk passed records =>
    (indent level ++ Outcome.icon passed ++ " " ++ branchLabel first)
      :: recordLines (level + 1) records

def recordLines (level : Nat) : List Record → List String
  | [] => []
  | r :: rest => Record.lines level r ++ recordLines level rest

end

/-- The trace of several records. -/
def trace (level : Nat) (records : List Record) : List String := recordLines level records

def allPassed (records : List Record) : Bool := records.all Record.passed

/-- The first record of a failed step. -/
def firstFailed? (records : List Record) : Option Record := records.find? (!·.passed)

end Attest

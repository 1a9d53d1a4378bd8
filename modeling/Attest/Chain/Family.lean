import Attest.Chain.Record
import Attest.Chain.Union
import Attest.Json.Document
import Attest.Step.Operation

/-!
# Chain families

A chain and all the alternatives forked from it are one family: they share a document, the stack
of open blocks and the outcome. Every member has its own queue of steps. A block belongs to the
chain that opened it; closing it queues one step on that chain, which runs all the alternatives,
each on its own copy of the candidates.

## Main definitions

* `Family`, `Member`, `Block`, `Entry` — the state of a family
* `runMember` — running the queue of a member
* `Family.conclude` — the verdict of the whole family

## Implementation notes

An alternative is made after the chain that it is forked from, so its number is greater, and the
depth of an evaluation is bounded by the number of members.
-/

namespace Attest

/-- The number of a member in its family; the origin is 0. -/
abbrev ChainId := Nat

/-- What waits in a queue. -/
inductive Entry where
  | step (s : Step)
  /-- The alternatives of a block, by its number. -/
  | block (index : Nat)

/-- A chain of a family. -/
structure Member where
  /-- The chain that it was forked from. -/
  parent : Option ChainId
  depth : Nat
  candidates : List Value
  queue : List Entry := []
  /-- What the steps that were run left. -/
  records : List Record := []

/-- Alternatives forked from one chain. -/
structure Block where
  owner : ChainId
  branches : List ChainId

/-- A chain with all its alternatives. -/
structure Family where
  document : Document
  description : String
  /-- The greatest length of shown values. -/
  limit : Int
  /-- Whether a failed outcome is raised when it is reported. -/
  raising : Bool
  members : List Member
  blocks : List Block := []
  /-- The open blocks, the innermost first. -/
  openBlocks : List Nat := []
  misuse : List String := []
  finalized : Bool := false
  reported : List Outcome := []

namespace Family

/-- A family of one chain, whose only candidate is the root of the document. -/
def start (document : Document) (description : String) (limit : Int) (raising : Bool) : Family :=
  { document, description, limit, raising
    members := [⟨none, 0, if document.isValid then [document.root] else [], [], []⟩] }

def member? (f : Family) (k : ChainId) : Option Member := f.members[k]?

def modifyMember (f : Family) (k : ChainId) (change : Member → Member) : Family :=
  { f with members := f.members.modify k change }

def branchesOf (f : Family) (block : Nat) : List ChainId :=
  ((f.blocks[block]?).map Block.branches).getD []

end Family

/-! ### Running a queue -/

/-- What is left of a member after it was run. -/
structure Visit where
  member : ChainId
  candidates : List Value
  records : List Record

/-- How far a run came. -/
structure Progress where
  candidates : List Value
  records : List Record
  /-- What interrupted the run. -/
  fault : Option Fault
  /-- The members that were run, with what they left. -/
  visits : List Visit

/-- The verdict of a run. -/
def Progress.passed (p : Progress) : Bool := p.fault.isNone && allPassed p.records

/-- Running a member from given candidates. -/
abbrev Evaluator := ChainId → List Value → Progress

/-- How far the alternatives of a block came. -/
structure BlockProgress where
  branches : List Branch
  /-- The candidates of the alternatives that passed. -/
  survivors : List (List Value)
  fault : Option Fault
  visits : List Visit

/-- Run alternatives, each from the same candidates. -/
def runBranches (run : Evaluator) (candidates : List Value) : List ChainId → BlockProgress
  | [] => ⟨[], [], none, []⟩
  | k :: rest =>
    let p := run k candidates
    match p.fault with
    | some fault => ⟨[], [], some fault, p.visits⟩
    | none =>
      let others := runBranches run candidates rest
      ⟨.mk p.passed p.records :: others.branches,
        if p.passed then p.candidates :: others.survivors else others.survivors,
        others.fault, p.visits ++ others.visits⟩

/-- Run the alternatives of a block. It passes iff one of them does; the candidates are then the
union of those that passed, and otherwise stay. -/
def runBlock (run : Evaluator) (candidates : List Value) (branches : List ChainId) :
    Except Fault (Ran × List Branch) × List Visit :=
  let p := runBranches run candidates branches
  match p.fault with
  | some fault => (.error fault, p.visits)
  | none =>
    if p.survivors.isEmpty then
      (.ok (⟨false, s!"none of {branches.length} branches passed", candidates⟩, p.branches),
        p.visits)
    else
      match unite p.survivors with
      | .error fault => (.error fault, p.visits)
      | .ok merged =>
        (.ok (⟨true, s!"{p.survivors.length} of {branches.length} branches passed", merged⟩,
          p.branches), p.visits)

/-- Run an entry of a queue. -/
def runEntry (run : Evaluator) (branchesOf : Nat → List ChainId) (candidates : List Value) :
    Entry → Except Fault (Ran × Record) × List Visit
  | .step s =>
    ((s.run candidates).map fun ran => (ran, .mk s.description ran.passed ran.message []), [])
  | .block index =>
    let (result, visits) := runBlock run candidates (branchesOf index)
    (result.map fun (ran, branches) => (ran, .mk "either" ran.passed ran.message branches), visits)

/-- Run a queue. All of it is run, also after a failed step, unless a fault interrupts it. -/
def runQueue (run : Evaluator) (branchesOf : Nat → List ChainId) :
    List Entry → List Value → Progress
  | [], candidates => ⟨candidates, [], none, []⟩
  | entry :: rest, candidates =>
    match runEntry run branchesOf candidates entry with
    | (.error fault, visits) => ⟨candidates, [], some fault, visits⟩
    | (.ok (ran, record), visits) =>
      let p := runQueue run branchesOf rest ran.candidates
      { p with records := record :: p.records, visits := visits ++ p.visits }

/-- Run a member of a family; the first argument bounds how deep blocks are nested. -/
def runMember (f : Family) : Nat → Evaluator
  | 0, k, candidates => ⟨candidates, [], none, [⟨k, candidates, []⟩]⟩
  | depth + 1, k, candidates =>
    let queue := ((f.member? k).map Member.queue).getD []
    let p := runQueue (runMember f depth) f.branchesOf queue candidates
    { p with visits := p.visits ++ [⟨k, p.candidates, p.records⟩] }

/-! ### Outcomes -/

namespace Family

/-- Store what a run left. -/
def recordVisits (f : Family) (visits : List Visit) : Family :=
  visits.foldl (fun f v =>
    f.modifyMember v.member fun m => { m with candidates := v.candidates, records := v.records }) f

/-- What was wrong with the use of the chain. -/
def problems (f : Family) : List String :=
  f.misuse ++ (if f.openBlocks.isEmpty then []
    else [s!"{f.openBlocks.length} either() without end()"])

/-- Why the family failed; empty if it passed. -/
def reason (f : Family) (records : List Record) : String :=
  if !f.problems.isEmpty then "; ".intercalate f.problems
  else match firstFailed? records with
    | some r => r.description ++ ": " ++ r.message
    | none => ""

/-- The outcome of a run of the origin. -/
def outcomeOf (f : Family) (p : Progress) : Except Fault Outcome := do
  let texts ← p.candidates.mapM (Value.excerpt f.limit)
  return {
    description := f.description
    passed := f.problems.isEmpty && allPassed p.records
    reason := f.reason p.records
    trace := trace 0 p.records
    candidates := texts }

/-- Hand an outcome to the sink, which may raise it. -/
def report (f : Family) (outcome : Outcome) : Family × Except Fault Unit :=
  ({ f with reported := f.reported ++ [outcome] },
    if f.raising && !outcome.passed then .error (.failedOutcome outcome) else .ok ())

/-- Run everything that was queued and report the outcome. -/
def conclude (f : Family) : Family × Except Fault Bool :=
  if f.finalized then (f, .error (.alreadyFinalized f.description))
  else
    let f := { f with finalized := true }
    match f.document.problem with
    | some problem =>
      let (f, sent) := f.report {
        description := f.description, passed := false, reason := "invalid JSON: " ++ problem }
      (f, sent.map fun _ => false)
    | none =>
      let start := ((f.member? 0).map Member.candidates).getD []
      let p := runMember f f.members.length 0 start
      let f := f.recordVisits p.visits
      match p.fault with
      | some fault => (f, .error fault)
      | none =>
        match f.outcomeOf p with
        | .error fault => (f, .error fault)
        | .ok outcome =>
          let (f, sent) := f.report outcome
          (f, sent.map fun _ => outcome.passed)

def notFinalized : String := "assertion chain was not finalized"

/-- Report a failure if the family was never finalized. -/
def close (f : Family) : Family × Except Fault Unit :=
  if f.finalized then (f, .ok ())
  else
    { f with finalized := true }.report {
      description := f.description, passed := false, reason := notFinalized }

end Family

end Attest

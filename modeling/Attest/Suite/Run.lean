import Attest.Chain.Bind
import Attest.Files.Tree
import Attest.Report.Recorder
import Attest.Suite.Basic

/-!
# Running suites

Every check of a suite is run on a chain of its own, and every check gives exactly one outcome:
that of its chain, or a failed one that says what kept the chain from being finalized.

## Main definitions

* `Host` — what a run takes from outside
* `Suite.logLine` — what the log says of an invocation
* `Suite.replay` — the calls of a check, made on a chain
* `Suite.outcomesOf` — the outcomes of a check
* `Suite.runAll`, `Suite.run` — a whole suite
-/

namespace Attest

/-- The contents of files by their places. -/
abbrev FileReader := Location → Except Fault (List UInt8)

/-- What a run of suites takes from outside: files, and a package for queries. -/
structure Host where
  read : FileReader
  queries : QueryEngine

namespace Suite

/-- Arguments given by name; their names must be texts. -/
def namedArguments : Entries → Except Fault NamedArguments
  | [] => .ok []
  | (.str name, v) :: rest => do return (name, v) :: (← namedArguments rest)
  | _ :: _ => .error (.unsuitable "keywords must be strings")

/-- No value of a suite stands for a predicate. -/
def noPredicate (v : Value) : Predicate :=
  fun _ => .error ⟨"TypeError", s!"'{v.typeName}' object is not callable"⟩

/-- The call that an operation of a suite makes. -/
def callOf (queries : QueryEngine) (c : Invocation) : Except Fault Call := do
  Call.named queries noPredicate c.op.name c.args (← namedArguments c.named)

/-- The entries that lookups come to: of those under one key the first. -/
def firstEntries : Entries → Entries
  | [] => []
  | (key, v) :: rest => (key, v) :: (firstEntries rest).filter fun e => !Value.sameKey key e.1

/-- The text of a collection of arguments, unless it is empty. -/
def argumentsText (empty : Bool) (arguments : Value) : Except Fault String :=
  if empty then .ok "" else arguments.display

/-- What the log says of an invocation: its operation, and its arguments if there are any. The text
is made whether anybody reads the log or not. -/
def logLine (c : Invocation) : Except Fault String := do
  let args ← argumentsText c.args.isEmpty (.list c.args)
  let named ← argumentsText c.named.isEmpty (.dict (firstEntries c.named))
  return c.op.name ++ " " ++ args ++ named

/-- The call that an operation of a suite makes, once the log has it. -/
def loggedCall (queries : QueryEngine) (c : Invocation) : Except Fault Call := do
  let _ ← logLine c
  callOf queries c

/-- Make the calls one after the other, each on the chain that the last one gave back. A finalizer
ends the check; without one the chain is verified. -/
def replay (queries : QueryEngine) (f : Family) (k : ChainId) :
    List Invocation → Family × Except Fault Unit
  | [] =>
    let (f, result) := f.call k .verify
    (f, result.map fun _ => ())
  | c :: rest =>
    match loggedCall queries c with
    | .error fault => (f, .error fault)
    | .ok call =>
      let (f, result) := f.call k call
      match result with
      | .error fault => (f, .error fault)
      | .ok reply =>
        if c.op.endsCheck then (f, .ok ())
        else match reply with
          | .chain k => replay queries f k rest
          | _ => (f, .error (.noSuchPart "not a chain"))

/-- The document of a check. A file is read when the check is run. -/
def documentOf (read : FileReader) (c : CheckPlan) : Except Fault Document :=
  match c.documentFile, c.documentText with
  | some l, _ => (read l).map Document.ofBytes
  | none, some text => .ok (.ofText text)
  | none, none => .ok (.ofValue c.document)

/-- A failed outcome of a check without a run. -/
def failure (c : CheckPlan) (reason : String) : Outcome :=
  { description := c.title, passed := false, reason := reason }

/-- The reason of an outcome for a fault. -/
def faultReason (fault : Fault) : String := fault.label ++ ": " ++ fault.message

/-- The outcomes of a check. -/
def outcomesOf (host : Host) (limit : Int) (c : CheckPlan) : List Outcome :=
  match documentOf host.read c with
  | .error (.file trouble path) =>
    [failure c ("cannot read document file: " ++ (Fault.file trouble path).message)]
  | .error fault => [failure c (faultReason fault)]
  | .ok document =>
    let (f, result) := replay host.queries (Family.start document c.title limit false) 0 c.steps
    match result with
    | .ok () => f.reported
    | .error fault => f.reported ++ [failure c (faultReason fault)]

/-- Run the checks in order. -/
def runAll (host : Host) (limit : Int) (recorder : Recorder) : List CheckPlan → Recorder
  | [] => recorder
  | c :: rest =>
    runAll host limit ((recorder.begin (some c.id)).receiveAll (outcomesOf host limit c)) rest

/-- A recorder for a suite. -/
def recorder (runId : String) (now : Instant) (s : Suite) : Except Fault Recorder := do
  let hash ← s.hash
  return { report := { runId := runId, startedAt := now, suiteName := s.name,
                       suiteVersion := s.version, suiteHash := hash } }

/-- Run a suite with a recorder, from one instant to another. -/
def runWith (host : Host) (recorder : Recorder) (start stop : Instant) (s : Suite) :
    Recorder :=
  ((runAll host s.limit (recorder.beginRun start) s.checks).begin none).endRun stop

/-- Run a suite. -/
def run (host : Host) (runId : String) (start stop : Instant) (s : Suite) :
    Except Fault Report := do
  let r ← s.recorder runId start
  return (s.runWith host r start stop).report

end Suite

end Attest

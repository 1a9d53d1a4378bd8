import Attest.Report.Basic

/-!
# Recording outcomes

A recorder collects the outcomes of chains into a report. An outcome that names no check is
attributed to the check that was begun last.

## Main definitions

* `Recorder` — a report and the current check
* `Recorder.begin`, `Recorder.receive` — attributing and recording outcomes
-/

namespace Attest

/-- A report that is being made. -/
structure Recorder where
  report : Report
  current : Option String := none
  deriving Repr, Inhabited

namespace Recorder

def beginRun (now : Instant) (r : Recorder) : Recorder :=
  { r with report := r.report.begin now }

def endRun (now : Instant) (r : Recorder) : Recorder :=
  { r with report := r.report.finish now }

/-- The outcomes that come next belong to a check, or to none. -/
def begin (checkId : Option String) (r : Recorder) : Recorder := { r with current := checkId }

/-- The outcome with the check that it belongs to. -/
def attributed (current : Option String) (o : Outcome) : Outcome :=
  match o.checkId with
  | some _ => o
  | none => { o with checkId := current }

def receive (r : Recorder) (o : Outcome) : Recorder :=
  { r with report := r.report.add (attributed r.current o) }

def receiveAll (r : Recorder) (outcomes : List Outcome) : Recorder := outcomes.foldl receive r

end Recorder

end Attest

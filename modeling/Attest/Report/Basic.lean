import Attest.Calendar
import Attest.Json.Writer
import Attest.Outcome

/-!
# Run reports

The record of a run of a suite: what was run, when, and every outcome. The counts and the final
status are computed when the run is completed.

## Main definitions

* `Status`, `Report` — the record
* `Report.begin`, `Report.finish`, `Report.add` — what happens to it
* `Report.data`, `Report.json`, `Report.summary` — its forms
-/

namespace Attest

/-- Where a run stands. -/
inductive Status where
  | pending
  | running
  | passed
  | failed
  deriving DecidableEq, Repr, Inhabited

namespace Status

def name : Status → String
  | .pending => "pending"
  | .running => "running"
  | .passed => "passed"
  | .failed => "failed"

def icon : Status → String
  | .pending => "⏳"
  | .running => "🔄"
  | .passed => "✅"
  | .failed => "❌"

end Status

/-- The record of a run. -/
structure Report where
  runId : String
  startedAt : Instant
  endedAt : Option Instant := none
  /-- In milliseconds. -/
  duration : Option Double := none
  suiteName : String := ""
  suiteVersion : Int := 1
  suiteHash : String := ""
  status : Status := .pending
  outcomes : List Outcome := []
  total : Nat := 0
  passed : Nat := 0
  failed : Nat := 0
  deriving Repr, Inhabited

namespace Report

/-- The run starts now. -/
def begin (now : Instant) (r : Report) : Report :=
  { r with status := .running, startedAt := now }

/-- The milliseconds in a number of microseconds: rounded to seconds first, then multiplied. -/
def milliseconds (micros : Int) : Double :=
  (Double.ofRatio (decide (micros < 0)) micros.natAbs 1000000).mul (.ofDecimal false 1000 0)

/-- The run ends now; the outcomes are counted. -/
def finish (now : Instant) (r : Report) : Report :=
  let total := r.outcomes.length
  let passed := (r.outcomes.filter (·.passed)).length
  { r with
    endedAt := some now
    duration := some (milliseconds (now.micros - r.startedAt.micros))
    total := total
    passed := passed
    failed := total - passed
    status := if total - passed = 0 then .passed else .failed }

def add (o : Outcome) (r : Report) : Report := { r with outcomes := r.outcomes ++ [o] }

/-- The first outcome of a check. -/
def outcome? (r : Report) (checkId : Option String) : Option Outcome :=
  r.outcomes.find? (·.checkId == checkId)

end Report

/-! ### Forms -/

def optionalText (s : Option String) : Value := (s.map Value.str).getD .null

def textList (texts : List String) : Value := .list (texts.map .str)

/-- An outcome as data. -/
def Outcome.data (o : Outcome) : Value :=
  .record [("check_id", optionalText o.checkId), ("description", .str o.description),
    ("passed", .bool o.passed), ("reason", .str o.reason), ("trace", textList o.trace),
    ("candidates", textList o.candidates)]

namespace Report

/-- The report as data. -/
def data (r : Report) : Value :=
  .record [("run_id", .str r.runId), ("started_at", .str r.startedAt.text),
    ("ended_at", optionalText (r.endedAt.map Instant.text)),
    ("duration_ms", (r.duration.map Value.float).getD .null),
    ("suite_name", .str r.suiteName), ("suite_version", .int r.suiteVersion),
    ("suite_hash", .str r.suiteHash), ("status", .str r.status.name),
    ("summary", .record [("total", .int r.total), ("passed", .int r.passed),
      ("failed", .int r.failed)]),
    ("outcomes", .list (r.outcomes.map Outcome.data))]

/-- The report as JSON. -/
def json (indent : Option Nat) (r : Report) : Except Fault String :=
  Json.write (.report indent) r.data

def heavyRule : String := "═══════════════════════════════════════════════════════════"

def lightRule : String := "───────────────────────────────────────────────────────────"

/-- The duration in whole milliseconds; none is shown for a run that took no time. -/
def durationText (duration : Option Double) : String :=
  match duration with
  | none => "N/A"
  | some d =>
    if d.isZero then "N/A"
    else match d.roundToInt? with
      | some n => (if d.lt .zero && n = 0 then "-" else "") ++ toString n ++ "ms"
      | none => "N/A"

/-- The lines of an outcome in a summary. -/
def outcomeLines (o : Outcome) : List String :=
  let label := match o.checkId with
    | some id => if id.isEmpty then o.description else id
    | none => o.description
  ("  " ++ Outcome.icon o.passed ++ " [" ++ label ++ "] " ++ o.description)
    :: if o.passed then []
      else ("      └─ " ++ o.reason) :: o.trace.map ("         " ++ ·)

/-- The report in several lines. -/
def summary (r : Report) : String :=
  "\n".intercalate <|
    [heavyRule, "  Run Report: " ++ r.suiteName, heavyRule, "  Run ID:     " ++ r.runId,
      "  Status:     " ++ r.status.icon ++ " " ++ r.status.name.toUpper,
      "  Duration:   " ++ durationText r.duration, lightRule,
      s!"  Checks: {r.passed} passed, {r.failed} failed", lightRule]
      ++ r.outcomes.flatMap outcomeLines ++ [heavyRule]

end Report

end Attest

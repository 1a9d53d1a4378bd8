import Attest.Proofs.Report.Duration
import Attest.Proofs.Report.Sending
import Attest.Proofs.Suite.Fingerprint

/-!
# Suites that pass

A suite passes if every one of its checks does, and the status of a report says so. The report of a
run can always be put into a file: the numbers in it are the version of the suite, which was
digested before, counts of checks, and the time between two instants.

## Main definitions

* `Suite.Passes` — every check passes
* `Suite.Reports` — the report of a run
* `Report.StoredAs` — the contents of a file with a report

## Main results

* `Suite.reports_of_run` — what a run returns is its report
* `Suite.Reports.passed_iff` — its status is that of the suite
* `Suite.Reports.stored` — it can be stored
* `Suite.Reports.unbroken_candidates` — what it shows of the checks
-/

namespace Attest

/-- The contents of a file from which a report is read. -/
def Report.StoredAs (r : Report) (data : List UInt8) : Prop :=
  ∃ (text : String) (v : Value), r.json (some 2) = .ok text ∧ data = text.toUTF8.toList ∧
    Json.read text.toList = .ok v ∧ Report.Shows v r

namespace Suite

/-- Every check of the suite passes. -/
def Passes (host : Host) (s : Suite) : Prop :=
  ∀ c ∈ s.checks, ∀ outcome ∈ outcomesOf host s.limit c, outcome.passed = true

/-- The report of a run of a suite, from one instant to another. -/
structure Reports (host : Host) (runId : String) (start stop : Instant) (s : Suite)
    (r : Report) : Prop where
  runId : r.runId = runId
  suiteVersion : r.suiteVersion = s.version
  duration : r.duration = some (Report.milliseconds (stop.micros - start.micros))
  outcomes : List.Forall₂ (Records host s.limit) s.checks r.outcomes
  counted : r.Counted

variable {host : Host} {runId : String} {start stop : Instant} {s : Suite} {r : Report}

theorem reports_of_run (h : s.run host runId start stop = .ok r) :
    Reports host runId start stop s r := by
  obtain ⟨recorder, hrecorder, h⟩ := bind_eq_ok h
  obtain ⟨hash, _, hrecorder⟩ := bind_eq_ok hrecorder
  have hreport := (Except.ok.inj h).symm
  have hmade := (Except.ok.inj hrecorder).symm
  subst hreport hmade
  obtain ⟨recorded, hall, hrecords⟩ := runAll_records host s.limit s.checks (Recorder.beginRun start
    { report := { runId := runId, startedAt := start, suiteName := s.name,
                  suiteVersion := s.version, suiteHash := hash } })
  constructor
  case counted => exact Report.counted_finish ..
  all_goals simp only [runWith, Recorder.endRun, Recorder.begin, Report.finish, hall]
  case outcomes => exact hrecords
  all_goals rfl

/-- What is recorded of a check passed iff its outcome did. -/
theorem Records.passed_iff {limit : Int} {c : CheckPlan} {recorded : Outcome}
    (h : Records host limit c recorded) :
    recorded.passed = true ↔ ∀ outcome ∈ outcomesOf host limit c, outcome.passed = true := by
  obtain ⟨outcome, hone, _, rfl⟩ := h.gives
  simp [hone]

namespace Reports

variable (h : Reports host runId start stop s r)
include h

/-- **The status of a report is that of the suite.** -/
theorem passed_iff : r.status = .passed ↔ s.Passes host :=
  h.counted.status_passed.trans
    (forall_mem_iff_of_forall₂ (h.outcomes.imp fun _ _ hc => hc.passed_iff))

/-- The counts are not larger than the number of checks. -/
theorem counts_le : r.total = s.checks.length ∧ r.passed ≤ s.checks.length ∧
    r.failed ≤ s.checks.length := by
  have hlength := h.outcomes.length_eq
  rw [h.counted.total, h.counted.passed, h.counted.failed, hlength]
  exact ⟨rfl, List.countP_le_length, List.countP_le_length⟩

/-- **The report of a run can be stored**, and is found in what is stored. -/
theorem stored (hversion : s.version.natAbs < digitBound) (hcount : s.checks.length < digitBound)
    (hstart : start.timestamp.isValid = true) (hstop : stop.timestamp.isValid = true) :
    ∃ text, r.json (some 2) = .ok text ∧ r.StoredAs text.toUTF8.toList := by
  obtain ⟨htotal, hpassed, hfailed⟩ := h.counts_le
  obtain ⟨text, htext⟩ := Report.succeeds_json (h.suiteVersion ▸ hversion) (htotal ▸ hcount)
    (Nat.lt_of_le_of_lt hpassed hcount) (Nat.lt_of_le_of_lt hfailed hcount) (some 2)
  have hfinite : ∀ x ∈ r.duration, x.IsFinite := by
    intro x hx
    rw [h.duration] at hx
    exact Option.some.inj hx ▸ Report.isFinite_milliseconds hstart hstop
  obtain ⟨v, hread, hshows⟩ := Report.shows_of_json hfinite htext
  exact ⟨text, htext, text, v, htext, rfl, hread, hshows⟩

/-- What a report that can be sent shows of a check can be sent. -/
theorem unbroken_candidates (hsendable : r.data.Sendable) : ∀ c ∈ s.checks,
    ∀ outcome ∈ outcomesOf host s.limit c, ∀ candidate ∈ outcome.candidates,
      Unbroken candidate := by
  refine (forall_mem_iff_of_forall₂ (h.outcomes.imp fun c recorded hrecords => ?_)).mp
    fun recorded hrecorded => Report.unbroken_candidates hsendable hrecorded
  obtain ⟨outcome, hone, _, rfl⟩ := hrecords.gives
  simp [hone]

end Reports

/-- The version of a suite that is run is not too long. -/
theorem version_lt_of_run (h : s.run host runId start stop = .ok r) :
    s.version.natAbs < digitBound :=
  (writable_data_iff.mp (succeeds_run_iff.mp ⟨r, h⟩)).1

end Suite

end Attest

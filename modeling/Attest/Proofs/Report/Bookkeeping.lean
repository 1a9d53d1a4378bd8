import Attest.Proofs.Suite.Outcomes
import Attest.Report.Recorder

/-!
# The books of a recorder

A recorder is asked to start and finish a run, to begin a check, and to take an outcome, in any
order and any number of times. What it keeps is said here of the requests that were made: which
outcomes were reported, and which check was begun last before each of them. Nothing is said in terms
of the state that the recorder goes through on the way.

The counts are made when a run is finished and are not touched by anything else, so they may be
behind the outcomes; they add up all the same.

## Main definitions

* `Recorder.Request`, `Recorder.run` — what can be asked of a recorder, and a run of requests
* `Recorder.reported`, `Recorder.lastBegun` — what was reported, and the check that was begun last
* `Recorder.Books` — outcomes that are the reported ones, each with its check
* `Report.Shows` — data that agree with a report

## Main results

* `Recorder.books_run` — the outcomes of a run
* `Recorder.adds_up_run` — the counts add up
* `Recorder.keeps_the_books` — all that holds of a new recorder after any requests
-/

namespace Attest

namespace Recorder

/-- What can be asked of a recorder. -/
inductive Request where
  | start (now : Instant)
  | finish (now : Instant)
  | beginCheck (checkId : Option String)
  | report (outcome : Outcome)
  deriving DecidableEq, Repr

/-- The outcome of a request that reports one. -/
def Request.outcome? : Request → Option Outcome
  | .report o => some o
  | _ => none

/-- The check that a request begins, if it begins one or ends those before. -/
def Request.begun? : Request → Option (Option String)
  | .beginCheck checkId => some checkId
  | _ => none

def perform (r : Recorder) : Request → Recorder
  | .start now => r.beginRun now
  | .finish now => r.endRun now
  | .beginCheck checkId => r.begin checkId
  | .report o => r.receive o

def run (r : Recorder) (requests : List Request) : Recorder := requests.foldl perform r

/-- A new recorder. -/
def fresh (runId : String) (now : Instant) : Recorder :=
  { report := { runId := runId, startedAt := now } }

/-! ### What was asked -/

/-- The outcomes that were reported, as they were reported. -/
def reported (requests : List Request) : List Outcome := requests.filterMap Request.outcome?

/-- The check that was begun last; none if none was, or if none was meant. -/
def lastBegun (requests : List Request) : Option String :=
  (requests.filterMap Request.begun?).getLast?.join

variable (r : Recorder) (q : Request) (requests : List Request)

theorem run_append (before after : List Request) :
    r.run (before ++ after) = (r.run before).run after :=
  List.foldl_append

theorem run_concat : r.run (requests ++ [q]) = (r.run requests).perform q := run_append ..

/-! ### Single requests -/

theorem outcomes_perform : (r.perform q).report.outcomes
    = r.report.outcomes ++ (q.outcome?.map (attributed r.current)).toList := by
  cases q with
  | report o => rfl
  | start | finish | beginCheck => exact (List.append_nil _).symm

theorem current_perform : (r.perform q).current = q.begun?.getD r.current := by
  cases q <;> rfl

/-- An outcome keeps its check; else it gets the current one. -/
theorem attributed_eq (current : Option String) (o : Outcome) :
    attributed current o = { o with checkId := o.checkId.or current } := by
  obtain ⟨_, _, _, _, _, checkId⟩ := o
  cases checkId <;> rfl

/-- The counts of a report add up. -/
def AddsUp (r : Report) : Prop := r.total = r.passed + r.failed

/-- No request keeps the counts from adding up: one makes them anew, the others leave them alone. -/
theorem adds_up_perform (h : AddsUp r.report) : AddsUp (r.perform q).report := by
  cases q with
  | finish now =>
    have hle := List.length_filter_le (fun o : Outcome => o.passed) r.report.outcomes
    exact (Nat.add_sub_cancel' hle).symm
  | start | beginCheck | report => exact h

/-! ### Runs -/

theorem lastBegun_concat :
    lastBegun (requests ++ [q]) = q.begun?.getD (lastBegun requests) := by
  rw [lastBegun, lastBegun, List.filterMap_append]
  cases h : q.begun? <;> simp [h]

/-- The check that is current is the one that was begun last. -/
theorem current_run (h : r.current = none) : (r.run requests).current = lastBegun requests := by
  induction requests using List.reverseRecOn with
  | nil => exact h
  | append_singleton requests q ih =>
    rw [run_concat, current_perform, lastBegun_concat, ih]

/-- Outcomes are never taken back. -/
theorem exists_outcomes_run :
    ∃ more, (r.run requests).report.outcomes = r.report.outcomes ++ more := by
  induction requests using List.reverseRecOn with
  | nil => exact ⟨[], (List.append_nil _).symm⟩
  | append_singleton requests q ih =>
    obtain ⟨more, hmore⟩ := ih
    exact ⟨more ++ _, by rw [run_concat, outcomes_perform, hmore, List.append_assoc]⟩

theorem length_outcomes_run : (r.run requests).report.outcomes.length
    = r.report.outcomes.length + (reported requests).length := by
  induction requests using List.reverseRecOn with
  | nil => rfl
  | append_singleton requests q ih =>
    rw [run_concat, outcomes_perform, List.length_append, ih, reported, reported,
      List.filterMap_append, List.length_append, Nat.add_assoc]
    cases h : q.outcome? <;> simp [h]

/-- Outcomes that are those reported in some requests, in their order: at the place of a report is
its outcome, with the check that it names, or else the one that was begun last before it. -/
structure Books (requests : List Request) (outcomes : List Outcome) : Prop where
  length : outcomes.length = (reported requests).length
  each : ∀ before o after, requests = before ++ .report o :: after →
    outcomes[(reported before).length]?
      = some { o with checkId := o.checkId.or (lastBegun before) }

/-- **The outcomes of a run** are those that were reported, each with its check. -/
theorem books_run (hcurrent : r.current = none) (hnone : r.report.outcomes = []) :
    Books requests (r.run requests).report.outcomes := by
  have hlength : ∀ requests,
      (r.run requests).report.outcomes.length = (reported requests).length := by
    intro requests
    rw [length_outcomes_run, hnone, List.length_nil, Nat.zero_add]
  refine ⟨hlength requests, ?_⟩
  rintro before o after rfl
  obtain ⟨more, hmore⟩ := exists_outcomes_run ((r.run before).perform (.report o)) after
  have hplace : (r.run (before ++ .report o :: after)).report.outcomes
      = (r.run before).report.outcomes ++ attributed (lastBegun before) o :: more := by
    rw [run_append]
    refine hmore.trans ?_
    rw [outcomes_perform, current_run r before hcurrent, List.append_assoc]
    rfl
  rw [hplace, ← hlength before, List.getElem?_append_right (Nat.le_refl _), Nat.sub_self,
    List.getElem?_cons_zero, attributed_eq]

/-- **The counts add up** at any time. -/
theorem adds_up_run (h : AddsUp r.report) : AddsUp (r.run requests).report := by
  induction requests using List.reverseRecOn with
  | nil => exact h
  | append_singleton requests q ih =>
    rw [run_concat]
    exact adds_up_perform _ q ih

end Recorder

/-! ### Looking into a report -/

/-- The outcome is the first one that belongs to a check. -/
def Report.IsFirstOf (r : Report) (checkId : Option String) (o : Outcome) : Prop :=
  o.checkId = checkId ∧ ∃ before after, r.outcomes = before ++ o :: after ∧
    ∀ p ∈ before, p.checkId ≠ checkId

theorem Report.outcome?_eq_some_iff {r : Report} {checkId : Option String} {o : Outcome} :
    r.outcome? checkId = some o ↔ r.IsFirstOf checkId o := by
  rw [outcome?, List.find?_eq_some_iff_append]
  simp [IsFirstOf]

theorem Report.outcome?_eq_none_iff {r : Report} {checkId : Option String} :
    r.outcome? checkId = none ↔ ∀ o ∈ r.outcomes, o.checkId ≠ checkId := by
  rw [outcome?, List.find?_eq_none]
  simp

/-- The entry of a record under a name. -/
def Value.fieldAt? (name : String) : Value → Option Value
  | .object _ _ entries => field? name entries
  | _ => none

/-- Data that agree with an outcome. -/
structure Outcome.Shows (v : Value) (o : Outcome) : Prop where
  checkId : v.fieldAt? "check_id" = some (optionalText o.checkId)
  description : v.fieldAt? "description" = some (.str o.description)
  passed : v.fieldAt? "passed" = some (.bool o.passed)
  reason : v.fieldAt? "reason" = some (.str o.reason)
  trace : v.fieldAt? "trace" = some (textList o.trace)
  candidates : v.fieldAt? "candidates" = some (textList o.candidates)

/-- Data that agree with a report on its status, its counts and its outcomes. -/
structure Report.Shows (v : Value) (r : Report) : Prop where
  status : v.fieldAt? "status" = some (.str r.status.name)
  counts : ∃ w, v.fieldAt? "summary" = some w ∧ w.fieldAt? "total" = some (.int r.total) ∧
    w.fieldAt? "passed" = some (.int r.passed) ∧ w.fieldAt? "failed" = some (.int r.failed)
  outcomes : ∃ ws, v.fieldAt? "outcomes" = some (.list ws) ∧
    List.Forall₂ Outcome.Shows ws r.outcomes

theorem Report.shows_data (r : Report) : Report.Shows r.data r where
  status := rfl
  counts := ⟨_, rfl, rfl, rfl, rfl⟩
  outcomes := ⟨_, rfl, List.forall₂_map_left_iff.mpr
    (List.forall₂_same.mpr fun _ _ => ⟨rfl, rfl, rfl, rfl, rfl, rfl⟩)⟩

namespace Recorder

/-- **A recorder keeps the books.** Whatever is asked of a new recorder and in which order, it has
the outcomes that were reported, each with its check; it finds the first outcome of a check, if
there is one; its counts add up; and when a run is finished once more after that, they are those of
all outcomes so far, and the status says whether one of them failed. The data of a report agree with
it. -/
theorem keeps_the_books (runId : String) (made : Instant) (requests : List Request) :
    let report := ((fresh runId made).run requests).report
    Books requests report.outcomes ∧
      (∀ checkId o, report.outcome? checkId = some o ↔ report.IsFirstOf checkId o) ∧
      (∀ checkId, report.outcome? checkId = none ↔ ∀ o ∈ report.outcomes, o.checkId ≠ checkId) ∧
      report.total = report.passed + report.failed ∧
      (∀ now, let finished := ((fresh runId made).run (requests ++ [.finish now])).report
        finished.Counted ∧ finished.outcomes = report.outcomes) ∧
      Report.Shows report.data report := by
  refine ⟨books_run _ requests rfl rfl, fun _ _ => Report.outcome?_eq_some_iff,
    fun _ => Report.outcome?_eq_none_iff, adds_up_run _ requests rfl, fun now => ?_,
    Report.shows_data _⟩
  rw [run_concat]
  exact ⟨Report.counted_finish now _, rfl⟩

end Recorder

end Attest

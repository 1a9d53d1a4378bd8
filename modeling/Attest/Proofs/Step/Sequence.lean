import Mathlib.Data.List.Forall2
import Attest.Chain.Family

/-!
# Steps one after the other

A queue without blocks needs neither the evaluator of its family nor the alternatives in it: each
step works on what the one before it left, and all of them are run, also after one that failed. So
what several steps come to can be said of the steps alone, and holds of every queue that they stand
in.

## Main definitions

* `runSteps` — steps in a row
* `Step.Passes` — a step that passes on given candidates
* `ComesTo` — the verdict that steps in a row come to, and the candidates that they leave

## Main results

* `runQueue_steps` — a queue of steps is run like the steps in a row
* `runSteps_cons` — the first step, and then the others on what it leaves
-/

namespace Attest

/-- Steps one after the other, as the queue of a chain that opens no block. -/
def runSteps (steps : List Step) (candidates : List Value) : Progress :=
  runQueue (fun _ vs => ⟨vs, [], none, []⟩) (fun _ => []) (steps.map Entry.step) candidates

/-- The step is not interrupted on these candidates, and passes. -/
def Step.Passes (s : Step) (vs : List Value) : Prop :=
  ∃ ran, s.run vs = .ok ran ∧ ran.passed = true

/-- The steps, one after the other, are not interrupted, and come to this verdict and these
candidates. -/
structure ComesTo (steps : List Step) (vs : List Value) (passed : Bool) (ws : List Value) :
    Prop where
  fault : (runSteps steps vs).fault = none
  passed : (runSteps steps vs).passed = passed
  candidates : (runSteps steps vs).candidates = ws

variable {s : Step} {rest : List Step} {vs ws : List Value} {ran : Ran}

/-- **A queue of steps is run like the steps in a row,** whatever the family that it is in. -/
theorem runQueue_steps (run : Evaluator) (branchesOf : Nat → List ChainId) (steps : List Step)
    (vs : List Value) :
    runQueue run branchesOf (steps.map Entry.step) vs = runSteps steps vs := by
  unfold runSteps
  induction steps generalizing vs with
  | nil => rfl
  | cons s rest ih =>
    rw [List.map_cons, runQueue, runQueue, runEntry, runEntry]
    cases s.run vs with
    | error fault => rfl
    | ok ran =>
      simp only [Except.map]
      rw [ih ran.candidates]

/-- **The first step, and then the others on what it leaves.** -/
theorem runSteps_cons (h : s.run vs = .ok ran) :
    runSteps (s :: rest) vs = { runSteps rest ran.candidates with
      records := .mk s.description ran.passed ran.message []
        :: (runSteps rest ran.candidates).records } := by
  simp only [runSteps, List.map_cons, runQueue, runEntry, h, Except.map, List.nil_append]

theorem passed_runSteps_cons (h : s.run vs = .ok ran) :
    (runSteps (s :: rest) vs).passed
      = (ran.passed && (runSteps rest ran.candidates).passed) := by
  rw [runSteps_cons h]
  simp only [Progress.passed, allPassed, List.all_cons, Record.passed]
  exact Bool.and_left_comm ..

/-- A fault of the first step interrupts them all. -/
theorem runSteps_of_error {fault : Fault} (h : s.run vs = .error fault) :
    runSteps (s :: rest) vs = ⟨vs, [], some fault, []⟩ := by
  simp only [runSteps, List.map_cons, runQueue, runEntry, h, Except.map]

theorem comesTo_nil (vs : List Value) : ComesTo [] vs true vs := ⟨rfl, rfl, rfl⟩

theorem comesTo_cons {passed : Bool} (h : s.run vs = .ok ran)
    (hrest : ComesTo rest ran.candidates passed ws) :
    ComesTo (s :: rest) vs (ran.passed && passed) ws where
  fault := by
    rw [runSteps_cons h]
    exact hrest.fault
  passed := by rw [passed_runSteps_cons h, hrest.passed]
  candidates := by
    rw [runSteps_cons h]
    exact hrest.candidates

theorem comesTo_singleton (h : s.run vs = .ok ran) :
    ComesTo [s] vs ran.passed ran.candidates := by
  have hcomes := comesTo_cons h (comesTo_nil ran.candidates)
  rwa [Bool.and_true] at hcomes

/-- Steps in a row pass iff the first one does, and the others on what it leaves. -/
theorem passed_runSteps_cons_iff :
    (runSteps (s :: rest) vs).passed = true ↔
      ∃ ran, s.run vs = .ok ran ∧ ran.passed = true
        ∧ (runSteps rest ran.candidates).passed = true := by
  cases h : s.run vs with
  | error fault => simp [runSteps_of_error h, Progress.passed]
  | ok ran => simp [passed_runSteps_cons h]

theorem passed_runSteps_singleton_iff : (runSteps [s] vs).passed = true ↔ s.Passes vs := by
  rw [passed_runSteps_cons_iff]
  exact exists_congr fun ran => and_congr_right fun _ => and_iff_left rfl

end Attest

import Attest.Proofs.Chain.Meaning
import Attest.Proofs.Chain.Settlement
import Attest.Proofs.Suite.Reading

/-!
# One outcome for every check

Nothing is assumed about a suite here. It need not have been validated, so that calls may not exist
or take other arguments, blocks may be left open, and steps may come after a finalizer. Still every
check gives one outcome: where a fault keeps its chain from reporting one, the fault is reported in
its place, and after a chain has reported there is nothing left that could fail.

## Main definitions

* `Suite.Ends` — a chain reported its outcome, or a fault came before
* `Suite.Gives` — where the outcome of a check comes from
* `Suite.Records` — the outcome of a check in a report
* `Report.Counted` — a report that was completed

## Main results

* `Suite.replay_ends` — a replay ends in one of two ways, whatever the steps are
* `Suite.outcomesOf_gives` — a check gives one outcome
* `Suite.every_check_gives_one` — a suite gives one outcome for every check, in their order
-/

namespace Attest

namespace Family

variable {f : Family} {k : ChainId} {c : Call}

/-- An outcome of a family has its description, and belongs to no check. -/
theorem evaluation_owner {outcome : Outcome} (h : f.evaluation = .ok outcome) :
    outcome.description = f.description ∧ outcome.checkId = none := by
  cases hv : f.document.problem with
  | some problem =>
    rw [evaluation_of_invalid hv] at h
    cases h
    exact ⟨rfl, rfl⟩
  | none =>
    obtain ⟨texts, rfl⟩ := outcomeOf_eq_ok (evaluation_eq_ok hv h).2
    exact ⟨rfl, rfl⟩

/-- A building call gives back a chain to go on with, unless a step cannot be built. -/
theorem Coherent.reply_of_builds (hf : f.Coherent) (hk : k < f.members.length) (hc : c.Builds) :
    (∃ j, (f.call k c).2 = .ok (.chain j) ∧ j < (f.call k c).1.members.length) ∨
      ∃ fault, (f.call k c).2 = .error fault := by
  cases c with
  | queue operation =>
    cases hstep : operation.step f.document.root f.limit with
    | error fault => exact .inr ⟨fault, by simp only [Family.call, perform, hstep]⟩
    | ok s =>
      refine .inl (hf.chain_of_builds hk hc fun o ho => ⟨s, ?_⟩)
      rw [← Call.queue.inj ho, hstep]
  | _ => exact .inl (hf.chain_of_builds hk hc fun _ ho => nomatch ho)

end Family

namespace Suite

/-! ### The end of a chain -/

/-- A chain reported its outcome, and nothing is left to be done; or a fault came before, and
nothing was reported. -/
inductive Ends (title : String) : Family × Except Fault Unit → Prop where
  | reported {f : Family} {outcome : Outcome} : f.reported = [outcome] →
      outcome.description = title → outcome.checkId = none → Ends title (f, .ok ())
  | interrupted {f : Family} {fault : Fault} : f.reported = [] → Ends title (f, .error fault)

variable {document : Document} {title : String} {limit : Int} {f : Family} {k : ChainId}

/-- A finalizer of a chain that was only built ends it. -/
theorem finalizer_ends (h : (Family.start document title limit false).Built f) {c : Call}
    (hc : c.Finalizes) (k : ChainId) :
    Ends title ((f.call k c).1, (f.call k c).2.map fun _ => ()) := by
  have hfresh : f.finalized = false := h.finalized_eq
  have hempty : f.reported = [] := h.reported_eq
  have hraising : f.raising = false := h.raising_eq
  have htitle : f.description = title := by rw [h.shared]; rfl
  by_cases hd : c.Indescribable
  · rw [Family.call_of_indescribable hd]
    exact .interrupted hempty
  · obtain ⟨r, hr, herror, hok⟩ :=
      (Family.settled_of_settles hfresh hempty (.inr ⟨hc, hd⟩) k).finalized hc
    cases he : r.evaluation with
    | error fault =>
      obtain ⟨hreply, hreported⟩ := herror fault he
      rw [hreply]
      exact .interrupted hreported
    | ok outcome =>
      obtain ⟨hreply, hreported⟩ := hok outcome he
      obtain ⟨hdescription, hcheck⟩ := Family.evaluation_owner he
      rw [hreply, Family.answer, hraising]
      refine .reported hreported (hdescription.trans ?_) hcheck
      rw [Family.readied_shared hr]
      exact htitle

/-- **A replay ends in one of two ways**, whatever the steps are: a finalizer is the last call that
is made, and no other call reports anything. -/
theorem replay_ends (queries : QueryEngine) (hf : f.Coherent)
    (h : (Family.start document title limit false).Built f) (hk : k < f.members.length)
    (steps : List Invocation) : Ends title (replay queries f k steps) := by
  induction steps generalizing f k with
  | nil => exact finalizer_ends h (c := .verify) trivial k
  | cons i rest ih =>
    rw [replay]
    cases hlogged : loggedCall queries i with
    | error fault => exact .interrupted h.reported_eq
    | ok call =>
      obtain ⟨_, _, hcall⟩ := bind_eq_ok hlogged
      rcases (spells_of_callOf hcall).sort with ⟨hends, hfinalizes⟩ | ⟨hends, hbuilds⟩
      · have hend := finalizer_ends h hfinalizes k
        simp only [hends]
        revert hend
        cases (f.call k call).2 <;> exact id
      · have hbuilt := h.call (k := k) hbuilds
        rcases hf.reply_of_builds hk hbuilds with ⟨j, hreply, hj⟩ | ⟨fault, hreply⟩
        · simp only [hreply, hends]
          exact ih (hf.call hk hbuilds) hbuilt hj
        · simp only [hreply]
          exact .interrupted hbuilt.reported_eq

/-! ### The outcome of a check -/

/-- Where the outcome of a check comes from: its document cannot be read, or not be used, or a
fault interrupts its chain before it reports, or its chain reports. -/
inductive Gives (host : Host) (limit : Int) (c : CheckPlan) : Outcome → Prop where
  | unreadable {trouble : FileTrouble} {path : String} :
      documentOf host.read c = .error (.file trouble path) →
      Gives host limit c
        (failure c ("cannot read document file: " ++ (Fault.file trouble path).message))
  | unusable {fault : Fault} : documentOf host.read c = .error fault →
      (∀ trouble path, fault ≠ .file trouble path) →
      Gives host limit c (failure c (faultReason fault))
  | interrupted {document : Document} {f : Family} {fault : Fault} :
      documentOf host.read c = .ok document →
      replay host.queries (Family.start document c.title limit false) 0 c.steps = (f, .error fault) →
      f.reported = [] → Gives host limit c (failure c (faultReason fault))
  | reported {document : Document} {f : Family} {outcome : Outcome} :
      documentOf host.read c = .ok document →
      replay host.queries (Family.start document c.title limit false) 0 c.steps = (f, .ok ()) →
      f.reported = [outcome] → Gives host limit c outcome

/-- **A check gives one outcome**, which has its title. -/
theorem outcomesOf_gives (host : Host) (limit : Int) (c : CheckPlan) :
    ∃ outcome, outcomesOf host limit c = [outcome] ∧ Gives host limit c outcome ∧
      outcome.description = c.title ∧ outcome.checkId = none := by
  unfold outcomesOf
  cases hdocument : documentOf host.read c with
  | error fault =>
    by_cases hfile : ∃ trouble path, fault = .file trouble path
    · obtain ⟨trouble, path, rfl⟩ := hfile
      exact ⟨_, rfl, .unreadable hdocument, rfl, rfl⟩
    · have hother : ∀ trouble path, fault ≠ .file trouble path :=
        fun trouble path he => hfile ⟨trouble, path, he⟩
      refine ⟨_, ?_, .unusable hdocument hother, rfl, rfl⟩
      split
      · next trouble path he => exact absurd (Except.error.inj he) (hother trouble path)
      · next he => rw [Except.error.inj he]
      · next he => cases he
  | ok document =>
    have hstart := Family.coherent_start document c.title limit false
    have hends := replay_ends host.queries hstart hstart.built hstart.length_pos c.steps
    cases hreplay : replay host.queries (Family.start document c.title limit false) 0 c.steps with
    | mk f result =>
      rw [hreplay] at hends
      simp only [hreplay]
      cases hends with
      | reported hreported htitle hcheck =>
        exact ⟨_, hreported, .reported hdocument hreplay hreported, htitle, hcheck⟩
      | interrupted hempty =>
        rw [hempty]
        exact ⟨_, rfl, .interrupted hdocument hreplay hempty, rfl, rfl⟩

/-! ### The outcomes of a suite -/

/-- The outcome of a check in a report: that of the check, with its id and its title. -/
structure Records (host : Host) (limit : Int) (c : CheckPlan) (recorded : Outcome) :
    Prop where
  gives : ∃ outcome, outcomesOf host limit c = [outcome] ∧ Gives host limit c outcome ∧
    recorded = { outcome with checkId := some c.id }
  checkId : recorded.checkId = some c.id
  description : recorded.description = c.title

/-- Checks add one outcome each, and leave everything else of the report as it is. -/
theorem runAll_records (host : Host) (limit : Int) (checks : List CheckPlan)
    (recorder : Recorder) :
    ∃ recorded, (runAll host limit recorder checks).report
        = { recorder.report with outcomes := recorder.report.outcomes ++ recorded } ∧
      List.Forall₂ (Records host limit) checks recorded := by
  induction checks generalizing recorder with
  | nil => exact ⟨[], by simp [runAll], .nil⟩
  | cons c rest ih =>
    obtain ⟨outcome, hone, hgives, htitle, hcheck⟩ := outcomesOf_gives host limit c
    have hreceived : ((recorder.begin (some c.id)).receiveAll [outcome]).report
        = { recorder.report with
            outcomes := recorder.report.outcomes ++ [{ outcome with checkId := some c.id }] } := by
      simp only [Recorder.receiveAll, List.foldl_cons, List.foldl_nil, Recorder.receive,
        Recorder.begin, Recorder.attributed, hcheck, Report.add]
    obtain ⟨recorded, hreport, hall⟩ :=
      ih ((recorder.begin (some c.id)).receiveAll [outcome])
    refine ⟨{ outcome with checkId := some c.id } :: recorded, ?_,
      .cons ⟨⟨outcome, hone, hgives, rfl⟩, rfl, htitle⟩ hall⟩
    rw [runAll, hone, hreport, hreceived, List.append_assoc]
    rfl

end Suite

/-- A report that was completed: its counts are those of its outcomes, and its status says whether
one of them failed. -/
structure Report.Counted (r : Report) : Prop where
  total : r.total = r.outcomes.length
  passed : r.passed = r.outcomes.countP (·.passed)
  failed : r.failed = r.outcomes.countP (!·.passed)
  status_failed : r.status = .failed ↔ ∃ o ∈ r.outcomes, o.passed = false
  status_passed : r.status = .passed ↔ ∀ o ∈ r.outcomes, o.passed = true

theorem Report.counted_finish (now : Instant) (r : Report) : (r.finish now).Counted := by
  have hpassed : (r.outcomes.filter (·.passed)).length = r.outcomes.countP (·.passed) :=
    List.countP_eq_length_filter.symm
  have hfailed : r.outcomes.length - (r.outcomes.filter (·.passed)).length
      = r.outcomes.countP (!·.passed) := by
    rw [hpassed, List.length_eq_countP_add_countP (·.passed), Nat.add_sub_cancel_left]
    exact List.countP_congr fun o _ => by cases o.passed <;> simp
  have hnone : r.outcomes.countP (!·.passed) = 0 ↔ ∀ o ∈ r.outcomes, o.passed = true := by
    simp [List.countP_eq_zero]
  constructor
  case total => rfl
  case passed => exact hpassed
  case failed => exact hfailed
  case status_passed =>
    show _ ↔ ∀ o ∈ r.outcomes, o.passed = true
    rw [← hnone, ← hfailed]
    simp only [finish]
    split <;> simp_all
  case status_failed =>
    have hsome : (∃ o ∈ r.outcomes, o.passed = false) ↔ ¬ ∀ o ∈ r.outcomes, o.passed = true := by
      simp
    show _ ↔ ∃ o ∈ r.outcomes, o.passed = false
    rw [hsome, ← hnone, ← hfailed]
    simp only [finish]
    split <;> simp_all

namespace Suite

/-- **A suite gives one outcome for every check, in their order.** The outcomes that were there
before stay. What is added is what each check gives by itself, whatever the other checks gave, and
belongs to that check. No check is current afterwards, and the report is completed. -/
theorem every_check_gives_one (host : Host) (recorder : Recorder) (start stop : Instant)
    (s : Suite) :
    ∃ recorded, (s.runWith host recorder start stop).report.outcomes
        = recorder.report.outcomes ++ recorded ∧
      recorded.length = s.checks.length ∧
      List.Forall₂ (Records host s.limit) s.checks recorded ∧
      (s.runWith host recorder start stop).current = none ∧
      (s.runWith host recorder start stop).report.Counted := by
  obtain ⟨recorded, hreport, hall⟩ :=
    runAll_records host s.limit s.checks (recorder.beginRun start)
  refine ⟨recorded, ?_, hall.length_eq.symm, hall, rfl, Report.counted_finish ..⟩
  exact congrArg Report.outcomes hreport

end Suite

end Attest

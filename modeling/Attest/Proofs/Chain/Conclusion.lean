import Attest.Proofs.Chain.Evaluation

/-!
# Concluding a family

Every finalizer ends in one operation, which runs the origin and reports. This file gives its
three results in terms of the run, and says what is still as it was when it begins: building calls
change members, blocks, the stack and the misuse, and nothing else.

## Main definitions

* `Family.Built` — a family differs from another in what building calls change
* `Family.readied` — the family that a finalizer runs
* `Family.ran` — the family after its run, before anything is reported

## Main results

* `Family.Reached.built` — what building calls leave as it was
* `Family.call_of_readied` — a finalizer is a conclusion
* `Family.conclude_of_fault`, `conclude_of_hidden`, `conclude_of_outcome` — its results
-/

namespace Attest

namespace Family

/-! ### What building calls leave as it was -/

/-- Only what building calls change is different, and the origin still has its candidates. -/
structure Built (f g : Family) : Prop where
  shared : g = { f with
    members := g.members, blocks := g.blocks, openBlocks := g.openBlocks, misuse := g.misuse }
  origin : ∃ m n, f.member? 0 = some m ∧ g.member? 0 = some n ∧ n.candidates = m.candidates

variable {f g : Family}

theorem Coherent.built (h : f.Coherent) : f.Built f := by
  obtain ⟨m, hm, _⟩ := h.origin
  exact ⟨rfl, m, m, hm, hm, rfl⟩

theorem Built.queueFor (h : f.Built g) (k : ChainId) (entry : Entry) :
    f.Built (g.queueFor k entry) where
  shared := by
    rw [Family.queueFor, modifyMember, h.shared]
  origin := by
    obtain ⟨m, n, hm, hn, hc⟩ := h.origin
    refine ⟨m, _, hm, by rw [member?_queueFor, hn]; rfl, ?_⟩
    split <;> exact hc

theorem Built.noteMisuse (h : f.Built g) (message : String) : f.Built (g.noteMisuse message) where
  shared := by rw [Family.noteMisuse, h.shared]
  origin := h.origin

theorem Built.pushBlock (h : f.Built g) (k : ChainId) : f.Built (g.pushBlock k) where
  shared := by rw [Family.pushBlock, h.shared]
  origin := h.origin

theorem Built.nextBranch (h : f.Built g) (k : ChainId) : f.Built (g.nextBranch k).1 := by
  cases ho : g.openBlocks with
  | nil => simpa only [Family.nextBranch, ho] using h.noteMisuse _
  | cons b rest =>
    obtain ⟨m, n, hm, hn, hc⟩ := h.origin
    simp only [Family.nextBranch, ho]
    refine ⟨by rw [branchOff, h.shared], m, n, hm, ?_, hc⟩
    exact member?_branchInto_of_some b hn

theorem Built.closeBlock (h : f.Built g) (k : ChainId) : f.Built (g.closeBlock k).1 := by
  cases ho : g.openBlocks with
  | nil => simpa only [Family.closeBlock, ho] using h.noteMisuse _
  | cons b rest =>
    have hpop : f.Built { g with openBlocks := rest } := ⟨by rw [h.shared], h.origin⟩
    simpa only [Family.closeBlock, ho] using hpop.queueFor _ _

theorem Built.call (h : f.Built g) {k : ChainId} {c : Call} (hc : c.Builds) :
    f.Built (g.call k c).1 := by
  rcases call_of_builds (f := g) (k := k) hc with he | ⟨s, he⟩ | he | he | he <;> rw [he]
  · exact h
  · exact h.queueFor k (.step s)
  · rw [openBlock_eq]
    exact (h.pushBlock k).nextBranch k
  · exact h.nextBranch k
  · exact h.closeBlock k

theorem Built.finalized_eq (h : f.Built g) : g.finalized = f.finalized := by rw [h.shared]

theorem Built.limit_eq (h : f.Built g) : g.limit = f.limit := by rw [h.shared]

theorem Built.document_eq (h : f.Built g) : g.document = f.document := by rw [h.shared]

theorem Built.reported_eq (h : f.Built g) : g.reported = f.reported := by rw [h.shared]

theorem Built.raising_eq (h : f.Built g) : g.raising = f.raising := by rw [h.shared]

/-- **Building calls change what queues hold, and nothing that was there before.** -/
theorem Reached.built (hf : f.Coherent) (h : Reached Call.Builds f g) : f.Built g := by
  induction h with
  | start => exact hf.built
  | call _ _ hc ih => exact ih.call hc

/-! ### Finalizers -/

/-- The family that a finalizer runs: one that checks the number of candidates queues that check
before. -/
def readied (f : Family) (k : ChainId) : Call → Except Fault Family
  | .finish relation n => (Step.count relation n).map fun s => f.queueFor k (.step s)
  | _ => .ok f

theorem call_of_readied {k : ChainId} {c : Call} (hc : c.Finalizes) (h : f.readied k c = .ok g) :
    f.call k c = (g.conclude.1, g.conclude.2.map .verdict) := by
  cases c with
  | verify =>
    cases h
    rfl
  | finish relation n =>
    obtain ⟨s, hs, rfl⟩ := map_eq_ok h
    simp only [call, hs, verify]
  | queue | openBlock | nextBranch | closeBlock | trace | close | enter | exit => exact hc.elim

theorem call_of_not_readied {k : ChainId} {c : Call} (hc : c.Finalizes) {fault : Fault}
    (h : f.readied k c = .error fault) : f.call k c = (f, .error fault) := by
  cases c with
  | verify => cases h
  | finish relation n =>
    simp only [readied] at h
    cases hs : Step.count relation n with
    | error e =>
      rw [hs] at h
      cases h
      simp only [call, hs]
    | ok s =>
      rw [hs] at h
      cases h
  | queue | openBlock | nextBranch | closeBlock | trace | close | enter | exit => exact hc.elim

/-- A finalizer runs what was there, and at most one step more. -/
theorem readied_eq {k : ChainId} {c : Call} (h : f.readied k c = .ok g) :
    g = f ∨ ∃ s, g = f.queueFor k (.step s) := by
  cases c with
  | finish relation n =>
    obtain ⟨s, _, rfl⟩ := map_eq_ok h
    exact .inr ⟨s, rfl⟩
  | verify | queue | openBlock | nextBranch | closeBlock | trace | close | enter | exit =>
    cases h
    exact .inl rfl

theorem Coherent.readied (hf : f.Coherent) {k : ChainId} (hk : k < f.members.length) {c : Call}
    (h : f.readied k c = .ok g) : g.Coherent := by
  rcases readied_eq h with rfl | ⟨s, rfl⟩
  · exact hf
  · exact hf.queueStep hk s

theorem Built.readied {f₀ : Family} (hf : f₀.Built f) {k : ChainId} {c : Call}
    (h : f.readied k c = .ok g) : f₀.Built g := by
  rcases readied_eq h with rfl | ⟨s, rfl⟩
  · exact hf
  · exact hf.queueFor k (.step s)

/-! ### The conclusion -/

/-- A run looks at members and blocks only. -/
theorem runMember_of_eq (hm : f.members = g.members) (hb : f.blocks = g.blocks) :
    ∀ d, runMember f d = runMember g d
  | 0 => rfl
  | d + 1 => by
    have hbranches : f.branchesOf = g.branchesOf := by
      funext b
      simp only [branchesOf, hb]
    funext k candidates
    simp only [runMember, member?, hm, hbranches, runMember_of_eq hm hb d]

theorem runMember_finalized (f : Family) :
    runMember { f with finalized := true } f.members.length = f.run := by
  rw [runMember_of_eq (f := { f with finalized := true }) (g := f) rfl rfl]
  rfl

/-- A family after its run, before anything is reported. -/
def ran (f : Family) (p : Progress) : Family := { f with finalized := true }.recordVisits p.visits

/-- Storing what a run left changes members only. -/
theorem recordVisits_eq (f : Family) (vs : List Visit) :
    f.recordVisits vs = { f with members := (f.recordVisits vs).members } := by
  induction vs using List.reverseRecOn with
  | nil => rfl
  | append_singleton vs v ih =>
    rw [recordVisits_append]
    simp only [recordVisits, List.foldl_cons, List.foldl_nil, modifyMember] at ih ⊢
    rw [ih]

theorem ran_eq (f : Family) (p : Progress) :
    f.ran p = { f with finalized := true, members := (f.ran p).members } := by
  rw [ran, recordVisits_eq]

theorem outcomeOf_ran (f : Family) (p q : Progress) : (f.ran p).outcomeOf q = f.outcomeOf q := by
  rw [ran_eq]
  rfl

/-- The candidates that the origin begins with. -/
def startCandidates (f : Family) : List Value := ((f.member? 0).map Member.candidates).getD []

theorem Built.startCandidates_eq (h : f.Built g) : g.startCandidates = f.startCandidates := by
  obtain ⟨m, n, hm, hn, hc⟩ := h.origin
  simp [startCandidates, hm, hn, hc]

theorem startCandidates_start {document : Document} (hv : document.problem = none)
    (description : String) (limit : Int) (raising : Bool) :
    (start document description limit raising).startCandidates = [document.root] := by
  simp [startCandidates, start, member?, Document.isValid, hv]

/-- The run of the origin ends with the visit of the origin. -/
theorem Linked.member?_ran (h : f.Linked) (candidates : List Value) :
    ∃ m, (f.ran (f.run 0 candidates)).member? 0 = some m ∧
      m.candidates = (f.run 0 candidates).candidates ∧
      m.records = (f.run 0 candidates).records := by
  let p := runQueue f.run f.branchesOf (f.queueOf 0) candidates
  let before := { f with finalized := true }.recordVisits p.visits
  obtain ⟨old, hold⟩ : ∃ old, before.members[0]? = some old :=
    ⟨_, List.getElem?_eq_getElem (by rw [length_members_recordVisits]; exact h.length_pos)⟩
  have hran : f.ran (f.run 0 candidates) = before.recordVisits [⟨0, p.candidates, p.records⟩] := by
    rw [h.run_eq h.length_pos]
    exact recordVisits_append ..
  rw [hran, h.run_eq h.length_pos]
  refine ⟨{ old with candidates := p.candidates, records := p.records }, ?_, rfl, rfl⟩
  simp only [recordVisits, List.foldl_cons, List.foldl_nil, modifyMember, member?,
    List.getElem?_modify, hold]
  rfl

section Conclude

variable {fault : Fault} (hf : f.finalized = false) (hv : f.document.problem = none)

include hf hv

/-- A run that was interrupted reports nothing. -/
theorem conclude_of_fault (h : (f.run 0 f.startCandidates).fault = some fault) :
    f.conclude = (f.ran (f.run 0 f.startCandidates), .error fault) := by
  simp only [startCandidates, member?] at h
  simp only [conclude, hf, hv, Bool.false_eq_true, if_false, member?, runMember_finalized, h, ran,
    startCandidates]

/-- Neither does a run whose candidates cannot be shown. -/
theorem conclude_of_hidden (h : (f.run 0 f.startCandidates).fault = none)
    (ho : f.outcomeOf (f.run 0 f.startCandidates) = .error fault) :
    f.conclude = (f.ran (f.run 0 f.startCandidates), .error fault) := by
  rw [← outcomeOf_ran f (f.run 0 f.startCandidates)] at ho
  simp only [startCandidates, member?, ran] at h ho
  simp only [conclude, hf, hv, Bool.false_eq_true, if_false, member?, runMember_finalized, h, ho,
    ran, startCandidates]

theorem conclude_of_outcome {outcome : Outcome} (h : (f.run 0 f.startCandidates).fault = none)
    (ho : f.outcomeOf (f.run 0 f.startCandidates) = .ok outcome) :
    f.conclude
      = ({ f.ran (f.run 0 f.startCandidates) with reported := f.reported ++ [outcome] },
        if f.raising && !outcome.passed then .error (.failedOutcome outcome)
        else .ok outcome.passed) := by
  have hconclude : f.conclude = (((f.ran (f.run 0 f.startCandidates)).report outcome).1,
      ((f.ran (f.run 0 f.startCandidates)).report outcome).2.map fun _ => outcome.passed) := by
    rw [← outcomeOf_ran f (f.run 0 f.startCandidates)] at ho
    simp only [startCandidates, member?, ran] at h ho
    simp only [conclude, hf, hv, Bool.false_eq_true, if_false, member?, runMember_finalized, h, ho,
      ran, startCandidates]
  rw [hconclude, report, ran_eq]
  dsimp only
  split <;> rfl

/-- Whatever is reported after a run that was not interrupted, members are as the run left them. -/
theorem conclude_member? (h : (f.run 0 f.startCandidates).fault = none) (j : ChainId) :
    f.conclude.1.member? j = (f.ran (f.run 0 f.startCandidates)).member? j := by
  cases ho : f.outcomeOf (f.run 0 f.startCandidates) with
  | error fault => rw [conclude_of_hidden hf hv h ho]
  | ok outcome =>
    rw [conclude_of_outcome hf hv h ho]
    rfl

end Conclude

/-- The verdict of an outcome is that of the run, unless the chain was misused. -/
theorem passed_of_outcomeOf {p : Progress} {outcome : Outcome} (h : f.outcomeOf p = .ok outcome) :
    outcome.passed = (f.problems.isEmpty && allPassed p.records) := by
  unfold outcomeOf at h
  cases ht : p.candidates.mapM (Value.excerpt f.limit) with
  | error e => simp [ht, bind, Except.bind] at h
  | ok texts =>
    simp only [ht, bind, Except.bind, pure, Except.pure, Except.ok.injEq] at h
    rw [← h]

end Family

end Attest

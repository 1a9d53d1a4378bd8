import Attest.Proofs.Chain.Conclusion
import Attest.Proofs.Chain.Interruption
import Attest.Proofs.Json.Documents
import Attest.Proofs.Suite.Accepted

/-!
# Errors as reported outcomes

Trouble with a document is meant to be reported: calls with arguments that the validator accepts
should be queued, and a finalizer should then answer with a verdict after it has reported one
outcome. For chains over JSON texts this file says exactly when that is so. An argument with an
integer that has no text cannot be queued, nor can a pattern that fails to compile for a reason
other than its syntax; and a run that comes to a blocked path or a stuck query ends without an
outcome, in a family that counts as finalized. Queries are put to any package that keeps to what is
documented.

## Main definitions

* `Call.Refused` — the calls that cannot be queued
* `Family.RunInterrupted` — the run of the origin comes to an operation that is interrupted
* `Family.Refuses`, `Family.Loses`, `Family.Reports` — the three ways in which a call can end

## Main results

* `Family.errors_reported_unless` — errors are reported but in these cases
* `Family.long_index_lost` — a family that ends without an outcome
-/

namespace Attest

/-- The call cannot be queued. -/
def Call.Refused : Call → Prop
  | .queue operation => operation.Refused
  | .finish _ n => ¬ n.Shown
  | _ => False

theorem Call.Plain.builds_or_finalizes {queries : QueryEngine} {c : Call} (h : c.Plain queries) :
    c.Builds ∨ c.Finalizes := by
  cases c with
  | queue | openBlock | nextBranch | closeBlock => exact .inl trivial
  | verify | finish => exact .inr trivial
  | trace | close | enter | exit => exact h.elim

namespace Family

/-- The run of the origin comes to an operation that is interrupted. -/
def RunInterrupted (queries : QueryEngine) (f : Family) : Prop :=
  f.document.problem = none ∧ f.Interrupted queries (f.queueOf 0) [f.document.root]

/-- The call is interrupted by a fault that escapes, and does nothing. -/
def Refuses (f : Family) (k : ChainId) (c : Call) : Prop :=
  ∃ fault, fault.Escapes ∧ f.call k c = (f, .error fault)

/-- The call is interrupted by a fault that escapes, and leaves the family finalized without an
outcome. -/
def Loses (f : Family) (k : ChainId) (c : Call) : Prop :=
  ∃ fault, fault.Escapes ∧ (f.call k c).2 = .error fault ∧ (f.call k c).1.finalized = true ∧
    (f.call k c).1.reported = []

/-- The call gives a verdict, after the one outcome with this verdict was reported. -/
def Reports (f : Family) (k : ChainId) (c : Call) : Prop :=
  ∃ outcome, (f.call k c).2 = .ok (.verdict outcome.passed) ∧
    (f.call k c).1.reported = [outcome]

variable {queries : QueryEngine} {f g : Family} {k : Nat} {c : Call}

/-! ### Orderly families -/

theorem Orderly.of_queues (h : f.Orderly queries) (hd : g.document = f.document)
    (hl : g.limit = f.limit) (hq : ∀ k s, .step s ∈ g.queueOf k → .step s ∈ f.queueOf k ∨
      ∃ o : Operation, o.Plain queries ∧ o.step f.document.root f.limit = .ok s) :
    g.Orderly queries := by
  intro k s hs
  rw [hd, hl]
  rcases hq k s hs with hold | hnew
  · exact h k s hold
  · exact hnew

theorem orderly_start (document : Document) (description : String) (limit : Int) (raising : Bool) :
    (start document description limit raising).Orderly queries := by
  intro k s hs
  obtain ⟨m, hm, hs⟩ := mem_queueOf.mp hs
  rw [List.mem_singleton.mp (List.mem_of_getElem? hm)] at hs
  cases hs

theorem mem_queueOf_queueFor {j : ChainId} {entry old : Entry}
    (h : old ∈ (f.queueFor k entry).queueOf j) : old ∈ f.queueOf j ∨ old = entry := by
  obtain ⟨m, hm, hold⟩ := mem_queueOf.mp h
  obtain ⟨before, hbefore, -, -, hq⟩ := member_of_queueFor hm
  rcases hq with hq | ⟨-, hq⟩
  · exact .inl (mem_queueOf.mpr ⟨before, hbefore, hq ▸ hold⟩)
  · rw [hq] at hold
    rcases List.mem_append.mp hold with hold | hold
    · exact .inl (mem_queueOf.mpr ⟨before, hbefore, hold⟩)
    · exact .inr (List.mem_singleton.mp hold)

theorem Orderly.queueStep (h : f.Orderly queries) {o : Operation} {s : Step} (ho : o.Plain queries)
    (hs : o.step f.document.root f.limit = .ok s) : (f.queueFor k (.step s)).Orderly queries := by
  refine h.of_queues rfl rfl fun j t ht => ?_
  rcases mem_queueOf_queueFor ht with hold | hnew
  · exact .inl hold
  · cases hnew
    exact .inr ⟨o, ho, hs⟩

theorem mem_queueOf_branchOff {owner j : ChainId} {entry : Entry}
    (h : entry ∈ (f.branchOff owner).queueOf j) : entry ∈ f.queueOf j := by
  obtain ⟨m, hm, hentry⟩ := mem_queueOf.mp h
  simp only [member?, branchOff, List.getElem?_append] at hm
  split at hm
  · exact mem_queueOf.mpr ⟨m, hm, hentry⟩
  · rw [List.mem_singleton.mp (List.mem_of_getElem? hm)] at hentry
    cases hentry

theorem Orderly.nextBranch (h : f.Orderly queries) (k : ChainId) :
    (f.nextBranch k).1.Orderly queries := by
  unfold Family.nextBranch
  split
  · exact h
  · exact h.of_queues rfl rfl fun j s hs => .inl (mem_queueOf_branchOff hs)

theorem Orderly.closeBlock (h : f.Orderly queries) (k : ChainId) :
    (f.closeBlock k).1.Orderly queries := by
  unfold Family.closeBlock
  split
  · exact h
  · refine h.of_queues rfl rfl fun j s hs => ?_
    rcases mem_queueOf_queueFor hs with hold | hnew
    · exact .inl hold
    · cases hnew

theorem Orderly.call (h : f.Orderly queries) (hb : c.Builds) (hc : c.Plain queries) :
    (f.call k c).1.Orderly queries := by
  cases c with
  | queue operation =>
    simp only [Family.call, perform]
    cases hs : operation.step f.document.root f.limit with
    | error fault => exact h
    | ok s => exact h.queueStep hc hs
  | openBlock => exact h.of_queues rfl rfl fun j s hs => .inl (mem_queueOf_branchOff hs)
  | nextBranch => exact h.nextBranch k
  | closeBlock => exact h.closeBlock k
  | verify | finish | trace | close | enter | exit => exact hb.elim

theorem Reached.orderly (hf : f.Orderly queries)
    (h : Reached (fun c => c.Builds ∧ c.Plain queries) f g) : g.Orderly queries := by
  induction h with
  | start => exact hf
  | call _ _ hc ih => exact ih.call hc.1 hc.2

/-! ### Queueing -/

theorem call_of_refused (hb : c.Builds) (hc : c.Plain queries) (hr : c.Refused) : f.Refuses k c := by
  cases c with
  | queue operation =>
    obtain ⟨fault, hs⟩ : ∃ fault, operation.step f.document.root f.limit = .error fault :=
      not_succeeds_iff.mp fun hs => Operation.Plain.succeeds_step_iff hc |>.mp hs hr
    refine ⟨fault, Operation.Plain.step_error hc hs, ?_⟩
    simp only [Family.call, perform, hs]
  | openBlock | nextBranch | closeBlock => exact hr.elim
  | verify | finish | trace | close | enter | exit => exact hb.elim

theorem call_of_not_refused (hb : c.Builds) (hc : c.Plain queries) (hr : ¬ c.Refused) :
    ∃ j, (f.call k c).2 = .ok (.chain j) := by
  cases c with
  | queue operation =>
    obtain ⟨s, hs⟩ : Succeeds (operation.step f.document.root f.limit) :=
      (Operation.Plain.succeeds_step_iff hc).mpr hr
    exact ⟨k, by simp only [Family.call, perform, hs]⟩
  | openBlock | nextBranch | closeBlock => exact ⟨_, rfl⟩
  | verify | finish | trace | close | enter | exit => exact hb.elim

theorem finalizer_of_refused (hc : c.Finalizes) (hp : c.Plain queries) (hr : c.Refused) :
    f.Refuses k c := by
  cases c with
  | verify => exact hr.elim
  | finish relation n =>
    cases n with
    | int n =>
      have hplain : (Operation.count relation (.int n)).Plain queries := trivial
      obtain ⟨fault, hs⟩ : ∃ fault,
          (Operation.count relation (.int n)).step f.document.root f.limit = .error fault :=
        not_succeeds_iff.mp fun hs => hplain.succeeds_step_iff.mp hs hr
      have hreadied : f.readied k (.finish relation (.int n)) = .error fault := by
        have hs : Step.count relation (.int n) = .error fault := hs
        simp only [readied, hs]
        rfl
      exact ⟨fault, hplain.step_error hs, call_of_not_readied hc hreadied⟩
    | _ => exact hp.elim
  | queue | openBlock | nextBranch | closeBlock | trace | close | enter | exit => exact hc.elim

/-- A finalizer that checks the number of candidates queues an operation like any other. -/
theorem readied_of_not_refused (hf : f.Orderly queries) (hc : c.Finalizes) (hp : c.Plain queries)
    (hr : ¬ c.Refused) : ∃ g, f.readied k c = .ok g ∧ g.Orderly queries := by
  cases c with
  | verify => exact ⟨f, rfl, hf⟩
  | finish relation n =>
    cases n with
    | int n =>
      have hplain : (Operation.count relation (.int n)).Plain queries := trivial
      obtain ⟨s, hs⟩ : Succeeds
          ((Operation.count relation (.int n)).step f.document.root f.limit) :=
        hplain.succeeds_step_iff.mpr hr
      have hs : Step.count relation (.int n) = .ok s := hs
      exact ⟨_, by simp only [readied, hs]; rfl, hf.queueStep hplain hs⟩
    | _ => exact hp.elim
  | queue | openBlock | nextBranch | closeBlock | trace | close | enter | exit => exact hc.elim

/-! ### Finalizing -/

section Conclude

variable (hf : f.finalized = false) (hsilent : f.raising = false) (hnew : f.reported = [])

include hf hsilent hnew

theorem conclude_of_invalid {problem : String} (hv : f.document.problem = some problem) :
    ∃ outcome : Outcome, f.conclude.2 = .ok outcome.passed ∧
      f.conclude.1.reported = [outcome] := by
  refine ⟨{ description := f.description, passed := false, reason := "invalid JSON: " ++ problem },
    ?_, ?_⟩
  · simp [conclude, hf, hv, report, hsilent, Except.map]
  · simp [conclude, hf, hv, report, hnew]

theorem Coherent.conclude_reports (h : f.Coherent) (hq : queries.Documented)
    (ho : f.Orderly queries) (hr : f.document.root.Shown)
    (hstart : f.document.problem = none → f.startCandidates = [f.document.root]) :
    (f.RunInterrupted queries → ∃ fault, fault.Escapes ∧ f.conclude.2 = .error fault ∧
      f.conclude.1.finalized = true ∧ f.conclude.1.reported = []) ∧
    (¬ f.RunInterrupted queries → ∃ outcome : Outcome, f.conclude.2 = .ok outcome.passed ∧
      f.conclude.1.reported = [outcome]) := by
  cases hv : f.document.problem with
  | some problem =>
    refine ⟨fun hi => ?_, fun _ => conclude_of_invalid hf hsilent hnew hv⟩
    have hvalid : f.document.problem = none := hi.1
    rw [hv] at hvalid
    cases hvalid
  | none =>
    have hshown : AllShown [f.document.root] := List.forall_mem_singleton.mpr hr
    have hrun := h.run_tame hq ho hr h.length_pos hshown
    rw [← hstart hv] at hrun
    unfold Progress.result at hrun
    have hiff : f.RunInterrupted queries ↔
        f.Interrupted queries (f.queueOf 0) f.startCandidates := by
      rw [RunInterrupted, hstart hv]
      exact and_iff_right hv
    rw [hiff]
    cases hfault : (f.run 0 f.startCandidates).fault with
    | some fault =>
      rw [hfault] at hrun
      refine ⟨fun _ => ⟨fault, hrun.cause fault rfl, ?_⟩, fun hn => absurd hrun.stopped hn⟩
      rw [conclude_of_fault hf hv hfault, ran_eq]
      exact ⟨rfl, rfl, hnew⟩
    | none =>
      rw [hfault] at hrun
      refine ⟨fun hi => absurd hi (hrun.runs.mp (succeeds_ok _)), fun _ => ?_⟩
      obtain ⟨texts, htexts⟩ : Succeeds
          ((f.run 0 f.startCandidates).candidates.mapM (Value.excerpt f.limit)) :=
        succeeds_mapM_iff.mpr fun v hv =>
          have hv : v.Shown := hrun.shown _ rfl v hv
          hv.excerpt_ok f.limit
      obtain ⟨outcome, houtcome⟩ : Succeeds (f.outcomeOf (f.run 0 f.startCandidates)) := by
        rw [outcomeOf, htexts]
        exact succeeds_ok _
      rw [conclude_of_outcome hf hv hfault houtcome, hsilent, hnew]
      exact ⟨outcome, rfl, rfl⟩

end Conclude

/-- **Errors are reported outcomes, but for integers that have no text, patterns that fail to
compile for another reason than their syntax, blocked paths and stuck queries.** For every package
for queries that keeps to what is documented, every JSON text, and all calls that accepted steps
stand for, made on any members in any order: each step stands for a call that queues something or
finalizes; a call that queues something is interrupted iff it is refused, and then does nothing; and
the first finalizer gives a verdict after one outcome was reported, unless it is refused itself or
the run comes to an operation that is interrupted. -/
theorem errors_reported_unless {document : Document} {description : String} {limit : Int}
    (hq : queries.Documented) (hd : document.FromText)
    (hf : Reached (fun c => c.Builds ∧ c.Accepted queries)
      (start document description limit false) f)
    (hk : k < f.members.length) :
    (∀ step, Suite.Accepts step →
      ∃ c, Suite.callOfStep queries step = .ok c ∧ (c.Builds ∨ c.Finalizes)) ∧
    (∀ c : Call, c.Accepted queries → c.Builds →
      (c.Refused → f.Refuses k c) ∧
      (¬ c.Refused → ∃ j, (f.call k c).2 = .ok (.chain j))) ∧
    (∀ c : Call, c.Accepted queries → c.Finalizes →
      (c.Refused → f.Refuses k c) ∧
      (¬ c.Refused → ∃ g, f.readied k c = .ok g ∧
        (g.RunInterrupted queries → f.Loses k c) ∧
        (¬ g.RunInterrupted queries → f.Reports k c))) := by
  have hstart := coherent_start document description limit false
  have hcoherent := (hf.mono fun _ hc => hc.1).coherent hstart
  have hbuilt := (hf.mono fun _ hc => hc.1).built hstart
  have horderly : f.Orderly queries :=
    (hf.mono fun _ hc => ⟨hc.1, hc.2.plain⟩).orderly
      (orderly_start document description limit false)
  refine ⟨fun step hstep => ?_, fun c hc hb => ?_, fun c hc hfin => ?_⟩
  · obtain ⟨c, hc, hplain⟩ := hstep.reads queries
    exact ⟨c, hc, hplain.builds_or_finalizes⟩
  · exact ⟨call_of_refused hb hc.plain, call_of_not_refused hb hc.plain⟩
  · refine ⟨finalizer_of_refused hfin hc.plain, fun hr => ?_⟩
    obtain ⟨g, hg, hog⟩ := readied_of_not_refused horderly hfin hc.plain hr
    have hbg := hbuilt.readied hg
    have hshown : g.document.root.Shown := by
      rw [hbg.document_eq]
      exact hd.shown
    obtain ⟨hlost, hreported⟩ := (hcoherent.readied hk hg).conclude_reports
      hbg.finalized_eq hbg.raising_eq hbg.reported_eq hq hog hshown fun hv => by
        rw [hbg.document_eq] at hv
        rw [hbg.startCandidates_eq, hbg.document_eq]
        exact startCandidates_start hv description limit false
    refine ⟨g, hg, fun hi => ?_, fun hi => ?_⟩
    · obtain ⟨fault, hescapes, hfault, hrest⟩ := hlost hi
      refine ⟨fault, hescapes, ?_, ?_⟩ <;> rw [call_of_readied hfin hg]
      · rw [hfault]
        rfl
      · exact hrest
    · obtain ⟨outcome, hpassed, hone⟩ := hreported hi
      refine ⟨outcome, ?_, ?_⟩ <;> rw [call_of_readied hfin hg]
      · rw [hpassed]
        rfl
      · exact hone

/-- A chain that puts a query to an array and is verified. -/
theorem errors_reported_unless_of_array :
    Query.engine.Documented ∧ (Document.ofText "[]").FromText ∧
      ∃ f : Family, Reached (fun c => c.Builds ∧ c.Accepted Query.engine)
          (start (.ofText "[]") "" 100 false) f ∧
        0 < f.members.length ∧ f.Reports 0 .verify := by
  have hq := Query.engine_documented
  have hd : (Document.ofText "[]").FromText := .inl ⟨"[]", rfl⟩
  let seek := Call.queue (.select Query.engine (.str "a"))
  let f := ((start (.ofText "[]") "" 100 false).call 0 seek).1
  have hseek : seek.Accepted Query.engine :=
    ⟨.dict [(.str "select", .str "a")], ⟨⟨⟨"select", rfl⟩, trivial, trivial⟩, .select, "", rfl⟩, rfl⟩
  have hf : Reached (fun c => c.Builds ∧ c.Accepted Query.engine)
      (start (.ofText "[]") "" 100 false) f := .call .start (k := 0) (by decide) ⟨trivial, hseek⟩
  have hk : 0 < f.members.length := by decide
  have hverify : Call.Accepted Query.engine .verify :=
    ⟨.str "verify", ⟨trivial, .verify, "", rfl⟩, rfl⟩
  have hroot : f.document.root.Shown := hd.shown
  obtain ⟨g, hg, _, hreports⟩ :=
    ((errors_reported_unless hq hd hf hk).2.2 .verify hverify trivial).2 id
  cases hg
  refine ⟨hq, hd, f, hf, hk, hreports fun hi => ?_⟩
  have hshown : AllShown [f.document.root] := List.forall_mem_singleton.mpr hroot
  obtain ⟨s, hqueue, hrun⟩ : ∃ s, f.queueOf 0 = [.step s] ∧ Succeeds (s.run [f.document.root]) :=
    ⟨_, rfl, _, rfl⟩
  obtain ⟨_, hi⟩ := hi
  rw [hqueue] at hi
  cases hi with
  | now ho hs hi => exact (ho.behaves hq hroot hs _ hshown).runs.mp hrun hi
  | later _ hi => cases hi

/-! ### A lost outcome -/

/-- The text of an index with one digit more than are read. -/
def longIndex : String := String.ofList (List.replicate (digitLimit + 1) '1')

theorem blocked_longIndex (node : NodeId) (form : ArrayForm) (items : List Value) :
    Path.Blocked (.array node form items) (Path.segmentsOf longIndex.toList) := by
  have hdigit : ∀ c ∈ List.replicate (digitLimit + 1) '1', c = '1' := fun c hc =>
    List.eq_of_mem_replicate hc
  rw [longIndex, String.toList_ofList, Path.segmentsOf_of_not_mem]
  · refine Path.blocked_of_oversized (Path.oversized_of_digits (fun c hc => ?_) ?_) ..
    · rw [hdigit c hc]
      decide
    · rw [List.length_replicate]
      exact Nat.lt_succ_self _
  · intro h
    exact absurd (hdigit '/' h) (by decide)
  · exact List.ne_nil_of_length_pos (by rw [List.length_replicate]; exact Nat.succ_pos _)

/-- **An index that is too long is no failed step.** Going to it is accepted and queued, and then
the finalizer is interrupted and no outcome is reported. -/
theorem long_index_lost :
    ∃ c : Call, Suite.Accepts (.dict [(.str "at", .str longIndex)]) ∧
      Suite.callOfStep Query.engine (.dict [(.str "at", .str longIndex)]) = .ok c ∧
      ((start (.ofText "[1]") "" 100 false).call 0 c).2 = .ok (.chain 0) ∧
      ((start (.ofText "[1]") "" 100 false).call 0 c).1.Loses 0 .verify := by
  let start₁ := start (.ofText "[1]") "" 100 false
  have hstart : start₁.Coherent := coherent_start (.ofText "[1]") "" 100 false
  have hq := Query.engine_documented
  have hplain : (Operation.atPath (.str longIndex)).Plain Query.engine := trivial
  have hd : (Document.ofText "[1]").FromText := .inl ⟨"[1]", rfl⟩
  have hroot : start₁.document.root.Shown := hd.shown
  obtain ⟨s, hs⟩ : Succeeds
      ((Operation.atPath (.str longIndex)).step start₁.document.root start₁.limit) :=
    hplain.succeeds_step_iff.mpr id
  have hcall : start₁.call 0 (.queue (.atPath (.str longIndex)))
      = (start₁.queueFor 0 (.step s), .ok (.chain 0)) := by
    simp only [Family.call, perform, hs]
  have ho : (start₁.queueFor 0 (.step s)).Orderly Query.engine :=
    (orderly_start (.ofText "[1]") "" 100 false).queueStep hplain hs
  have hi : (start₁.queueFor 0 (.step s)).RunInterrupted Query.engine := by
    refine ⟨rfl, .now hplain hs ⟨start₁.document.root, ?_, blocked_longIndex 1 .list [.int 1]⟩⟩
    split <;> exact List.mem_cons_self
  obtain ⟨fault, hescapes, hfault, hrest⟩ :=
    ((hstart.queueStep (by decide) s).conclude_reports rfl rfl rfl hq ho hroot fun _ => rfl).1 hi
  refine ⟨.queue (.atPath (.str longIndex)), ⟨⟨⟨"at", rfl⟩, trivial, trivial⟩, .at_, "", rfl⟩,
    rfl, ?_, ?_⟩ <;> rw [hcall]
  refine ⟨fault, hescapes, ?_, hrest⟩
  rw [call_of_readied (c := .verify) trivial rfl, hfault]
  rfl

end Family

end Attest

import Attest.Proofs.Chain.Settlement

/-!
# Verdicts and their reasons

The outcome of a family says whether it passed, and if it did not, why. There are four causes of a
failure: the text is no document, a block was continued or ended that was never begun, a block was
left open, or a step failed. This file says which of them the reason names, and that an outcome
passed iff none of them occurred.

Whether the steps passed is read off the records, and a block in them passed iff some alternative
did. A record alone does not say that much: the flag that it carries was computed by the run. So
records are held against the queues that they belong to, down to the plain steps of the innermost
alternatives, and the flags are proved to say the same.

## Main definitions

* `Record.Vouches`, `recordsVouch` — records that show entries to have passed
* `Family.Noted` — families that calls lead to, with what these were noted for
* `Family.Explained` — the verdict of an outcome is right, and its reason names the cause

## Main results

* `Family.Linked.vouch_iff` — the flags of records say what the records show
* `Family.Noted.misuse_eq` — complaints are kept in the order of the calls
* `Family.verdict_explained` — the outcome of every finalizer is right and explained
-/

namespace Attest

/-! ### Records that show entries to have passed -/

mutual

/-- The record of a plain step shows that it passed by its flag, and that of a block by the records
of one of its alternatives. -/
def Record.Vouches (f : Family) : Record → Entry → Prop
  | .mk _ passed _ _, .step _ => passed = true
  | .mk _ _ _ branches, .block b => branchesVouch f branches (f.branchesOf b)

/-- Some alternative passed. -/
def branchesVouch (f : Family) : List Branch → List ChainId → Prop
  | b :: rest, k :: ks => b.Vouches f k ∨ branchesVouch f rest ks
  | [], _ | _ :: _, [] => False

/-- Everything in the queue of an alternative passed. -/
def Branch.Vouches (f : Family) : Branch → ChainId → Prop
  | .mk _ records, k => recordsVouch f records (f.queueOf k)

/-- Everything in a queue passed. -/
def recordsVouch (f : Family) : List Record → List Entry → Prop
  | [], [] => True
  | r :: rest, entry :: queue => r.Vouches f entry ∧ recordsVouch f rest queue
  | [], _ :: _ | _ :: _, [] => False

end

namespace Family

variable {f g r : Family} {k : ChainId} {c : Call}

/-- The flags of the records that a run of a member leaves say what the records show. -/
def VouchedFor (f : Family) (k : ChainId) : Prop :=
  ∀ candidates, (f.run k candidates).fault = none →
    (recordsVouch f (f.run k candidates).records (f.queueOf k) ↔
      allPassed (f.run k candidates).records = true)

theorem vouch_runBranches {candidates : List Value} : ∀ {ks : List ChainId},
    (∀ k ∈ ks, f.VouchedFor k) → (runBranches f.run candidates ks).fault = none →
      (branchesVouch f (runBranches f.run candidates ks).branches ks ↔
        (runBranches f.run candidates ks).survivors.isEmpty = false)
  | [], _, _ => by simp [runBranches, branchesVouch]
  | k :: ks, hks, hnone => by
    rw [runBranches] at hnone ⊢
    cases hfault : (f.run k candidates).fault with
    | some fault => simp [hfault] at hnone
    | none =>
      simp only [hfault] at hnone ⊢
      have hk := hks k List.mem_cons_self candidates hfault
      have ih := vouch_runBranches (fun j hj => hks j (List.mem_cons_of_mem _ hj)) hnone
      rw [branchesVouch, Branch.Vouches, hk, ih, Progress.passed, hfault]
      cases allPassed (f.run k candidates).records <;> simp

theorem vouch_runBlock {candidates : List Value} {ks : List ChainId} {ran : Ran}
    {branches : List Branch} (hks : ∀ k ∈ ks, f.VouchedFor k)
    (h : (runBlock f.run candidates ks).1 = .ok (ran, branches)) :
    branchesVouch f branches ks ↔ ran.passed = true := by
  have hnone := (runBlock_visits f.run candidates ks).2 _ h
  have hvouch := vouch_runBranches hks hnone
  simp only [runBlock, hnone] at h
  split at h
  · next hempty =>
    cases h
    rw [hvouch, hempty]
    simp
  · next hempty =>
    split at h
    · cases h
    · cases h
      rw [hvouch]
      simpa using hempty

theorem vouch_runEntry {candidates : List Value} {entry : Entry} {ran : Ran} {record : Record}
    {visits : List Visit}
    (hks : ∀ b, entry = .block b → ∀ k ∈ f.branchesOf b, f.VouchedFor k)
    (h : runEntry f.run f.branchesOf candidates entry = (.ok (ran, record), visits)) :
    record.Vouches f entry ↔ record.passed = true := by
  cases entry with
  | step s =>
    simp only [runEntry, Prod.mk.injEq] at h
    obtain ⟨_, _, he⟩ := map_eq_ok h.1
    rw [← (Prod.mk.inj he).2, Record.Vouches, Record.passed]
  | block b =>
    simp only [runEntry_block, Prod.mk.injEq] at h
    obtain ⟨⟨ran, branches⟩, hran, he⟩ := map_eq_ok h.1
    rw [← (Prod.mk.inj he).2, Record.Vouches, Record.passed]
    exact vouch_runBlock (hks b rfl) hran

theorem vouch_runQueue : ∀ {queue : List Entry} {candidates : List Value},
    (∀ b, .block b ∈ queue → ∀ k ∈ f.branchesOf b, f.VouchedFor k) →
      (runQueue f.run f.branchesOf queue candidates).fault = none →
        (recordsVouch f (runQueue f.run f.branchesOf queue candidates).records queue ↔
          allPassed (runQueue f.run f.branchesOf queue candidates).records = true)
  | [], _, _, _ => by simp [runQueue, recordsVouch, allPassed]
  | entry :: rest, candidates, hks, hnone => by
    rw [runQueue] at hnone ⊢
    split at hnone
    · cases hnone
    · next ran record visits he =>
      have hentry := vouch_runEntry (fun b hb => hks b (hb ▸ List.mem_cons_self)) he
      have ih := vouch_runQueue (fun b hb => hks b (List.mem_cons_of_mem _ hb)) hnone
      rw [recordsVouch, hentry, ih]
      simp [allPassed]

/-- **The flags of records say what the records show.** By induction from the last member on, since
alternatives have greater numbers than their owners. -/
theorem Linked.vouch_iff (h : f.Linked) (hk : k < f.members.length) : f.VouchedFor k := by
  induction hn : f.members.length - k using Nat.strongRecOn generalizing k with
  | ind n ih =>
    intro candidates hnone
    rw [h.run_eq hk] at hnone ⊢
    refine vouch_runQueue (fun b hb c hc => ?_) hnone
    obtain ⟨hlt, hc⟩ := h.lt_of_child (mem_children.mpr ⟨b, hb, hc⟩)
    exact ih _ (by simp only [ChainId] at *; omega) hc rfl

/-! ### Complaints in order -/

/-- The families that calls lead to, with what the calls were noted for, in their order. -/
inductive Noted (f : Family) : List String → Family → Prop where
  | start : Noted f [] f
  | call {messages : List String} {g : Family} {k : ChainId} {c : Call} :
      Noted f messages g → k < g.members.length →
        Noted f (messages ++ g.complaints c) (g.call k c).1

/-- Every family that calls lead to is noted for something, if only for nothing. -/
theorem reached_iff_noted :
    Reached (fun _ => True) f g ↔ ∃ messages, Noted f messages g := by
  constructor
  · intro h
    induction h with
    | start => exact ⟨[], .start⟩
    | call _ hk _ ih =>
      obtain ⟨messages, hm⟩ := ih
      exact ⟨_, hm.call hk⟩
  · rintro ⟨messages, h⟩
    induction h with
    | start => exact .start
    | call _ hk ih => exact .call ih hk trivial

/-- A family that is not finalized was not before either, and no call settled it. -/
theorem unsettled_of_call (hk : k < f.members.length) (h : (f.call k c).1.finalized = false) :
    f.finalized = false ∧ ¬ c.Settles := by
  have hf : f.finalized = false := by
    by_contra hf
    have hf : f.finalized = true := by simpa using hf
    have hlate := (built_self (Nat.zero_lt_of_lt hk)).late hf k c
    rw [hlate.finalized_eq, hf] at h
    cases h
  refine ⟨hf, fun hc => ?_⟩
  rw [finalized_of_settles hf hc k] at h
  cases h

theorem Noted.unsettled {messages : List String} (h : Noted f messages g)
    (hg : g.finalized = false) : Reached (fun c => ¬ c.Settles) f g := by
  induction h with
  | start => exact .start
  | call _ hk ih =>
    obtain ⟨hf, hc⟩ := unsettled_of_call hk hg
    exact .call (ih hf) hk hc

/-- **Until a family is finalized, it keeps what its calls were noted for.** -/
theorem Noted.misuse_eq {messages : List String} (hf : f.misuse = []) (h : Noted f messages g)
    (hg : g.finalized = false) : g.misuse = messages := by
  induction h with
  | start => exact hf
  | @call messages g k c _ hk ih =>
    obtain ⟨hgf, hc⟩ := unsettled_of_call hk hg
    by_cases hb : c.Builds
    · rw [misuse_call hb, ih hgf]
    · rw [complaints_of_not_builds hb, List.append_nil,
        (call_of_not_settles hc g k).resolve_left hb, ih hgf]

/-! ### Reasons -/

theorem ne_empty_of_mem {text : String} (char : Char) (h : char ∈ text.toList) : text ≠ "" := by
  rintro rfl
  cases h

/-- How many blocks were left open, if any. -/
def openText (f : Family) : List String :=
  if f.openBlocks.isEmpty then [] else [s!"{f.openBlocks.length} either() without end()"]

theorem problems_eq (f : Family) : f.problems = f.misuse ++ f.openText := rfl

theorem problems_eq_nil_iff : f.problems = [] ↔ f.misuse = [] ∧ f.openBlocks = [] := by
  simp [problems_eq, openText]

/-- The first entry of a queue that failed, and its record. -/
structure FailedFirst (queue : List Entry) (records : List Record) (i : Nat) (entry : Entry)
    (record : Record) : Prop where
  queued : queue[i]? = some entry
  recorded : records[i]? = some record
  failed : record.passed = false
  before : ∀ j, j < i → ∀ earlier : Record, records[j]? = some earlier → earlier.passed = true

/-- Records of which not all passed have a first one that failed, and it belongs to the entry at its
place. -/
theorem first_failed {records : List Record} {queue : List Entry}
    (hlabels : records.map Record.description = queue.map Entry.label)
    (h : allPassed records = false) :
    ∃ i entry record, FailedFirst queue records i entry record ∧
      firstFailed? records = some record ∧ record.description = entry.label := by
  obtain ⟨failed, hfailed⟩ : ∃ record, firstFailed? records = some record := by
    refine Option.isSome_iff_exists.mp (List.find?_isSome.mpr ?_)
    simpa [allPassed] using h
  obtain ⟨hflag, i, hi, rfl, hbefore⟩ := List.find?_eq_some_iff_getElem.mp hfailed
  have hlength : records.length = queue.length := by
    simpa using congrArg List.length hlabels
  obtain ⟨entry, hentry⟩ : ∃ entry, queue[i]? = some entry :=
    ⟨_, List.getElem?_eq_getElem (hlength ▸ hi)⟩
  have hlabel : (records.map Record.description)[i]? = (queue.map Entry.label)[i]? := by
    rw [hlabels]
  simp only [List.getElem?_map, List.getElem?_eq_getElem hi, hentry, Option.map_some,
    Option.some.injEq] at hlabel
  refine ⟨i, entry, records[i], ⟨hentry, List.getElem?_eq_getElem hi, by simpa using hflag,
    fun j hj earlier hearlier => ?_⟩, hfailed, hlabel⟩
  rw [List.getElem?_eq_getElem (Nat.lt_trans hj hi)] at hearlier
  cases hearlier
  simpa using hbefore j hj

theorem reason_of_problems (h : f.problems ≠ []) (records : List Record) :
    f.reason records = "; ".intercalate f.problems := by
  rw [reason, if_pos (by simpa using h)]

theorem reason_of_failed (h : f.problems = []) {records : List Record} {record : Record}
    (hr : firstFailed? records = some record) :
    f.reason records = record.description ++ ": " ++ record.message := by
  simp [reason, h, hr]

theorem reason_of_passed (h : f.problems = []) {records : List Record}
    (hp : allPassed records = true) : f.reason records = "" := by
  have hnone : firstFailed? records = none :=
    List.find?_eq_none.mpr fun record hr => by simpa using List.all_eq_true.mp hp record hr
  simp [reason, h, hnone]

/-- A reason is empty iff there was nothing to complain of. -/
theorem reason_eq_empty_iff (hm : ∀ message ∈ f.misuse, '(' ∈ message.toList)
    (records : List Record) :
    f.reason records = "" ↔ (f.problems.isEmpty && allPassed records) = true := by
  by_cases hp : f.problems = []
  · cases ha : allPassed records with
    | true => simp [reason_of_passed hp ha, hp]
    | false =>
      obtain ⟨record, hr⟩ : ∃ record, firstFailed? records = some record :=
        Option.isSome_iff_exists.mp (List.find?_isSome.mpr (by simpa [allPassed] using ha))
      rw [reason_of_failed hp hr]
      have hne : record.description ++ ": " ++ record.message ≠ "" :=
        ne_empty_of_mem ':' (by simp [String.toList_append])
      simp [hne]
  · obtain ⟨text, htext⟩ := List.exists_mem_of_ne_nil _ hp
    rw [reason_of_problems hp]
    have hne := ne_empty_of_mem '('
      (mem_toList_intercalate "; " htext (paren_of_problems hm htext))
    simp [hne, hp]

/-! ### Outcomes -/

def recordsOf (f : Family) (k : ChainId) : List Record :=
  ((f.member? k).map Member.records).getD []

/-- The verdict of an outcome is right, and its reason names the cause. The first family is the one
that was run, the other what is left of it. -/
structure Explained (f after : Family) (messages : List String) (outcome : Outcome) : Prop where
  passed_iff : outcome.passed = true ↔ f.document.problem = none ∧ messages = [] ∧
    f.openBlocks = [] ∧ recordsVouch f (after.recordsOf 0) (f.queueOf 0)
  reason_iff : outcome.reason = "" ↔ outcome.passed = true
  /-- Nothing is run without a document. -/
  invalid : ∀ problem, f.document.problem = some problem →
    outcome.reason = "invalid JSON: " ++ problem ∧ outcome.trace = [] ∧
      outcome.candidates = [] ∧ after.members = f.members
  /-- Misuse is told in the order of the calls, and then how many blocks are open. -/
  misused : f.document.problem = none → ¬ (messages = [] ∧ f.openBlocks = []) →
    outcome.reason = "; ".intercalate (messages ++ f.openText)
  /-- Otherwise there is a first failed entry. -/
  failed : f.document.problem = none → messages = [] → f.openBlocks = [] →
    outcome.passed = false → ∃ i entry record,
      FailedFirst (f.queueOf 0) (after.recordsOf 0) i entry record ∧
        outcome.reason = entry.label ++ ": " ++ record.message

theorem explained_of_invalid {problem : String} {messages : List String} {after : Family}
    (hv : f.document.problem = some problem) (ha : after.members = f.members) :
    f.Explained after messages (f.invalidOutcome problem) where
  passed_iff := by simp [invalidOutcome, hv]
  reason_iff := by
    have hne : "invalid JSON: " ++ problem ≠ "" :=
      ne_empty_of_mem ':' (by simp [String.toList_append])
    simp [invalidOutcome, hne]
  invalid := by
    rintro problem' hv'
    cases hv.symm.trans hv'
    exact ⟨rfl, rfl, rfl, ha⟩
  misused := fun hn => by simp [hv] at hn
  failed := fun hn => by simp [hv] at hn

/-- What a run leaves, in the terms of an outcome. -/
theorem Linked.recordsOf_conclude (h : f.Linked) (hf : f.finalized = false)
    (hv : f.document.problem = none) (hfault : (f.run 0 f.startCandidates).fault = none) :
    f.conclude.1.recordsOf 0 = (f.run 0 f.startCandidates).records := by
  obtain ⟨m, hm, _, hrecords⟩ := h.member?_ran f.startCandidates
  rw [recordsOf, conclude_member? hf hv hfault, hm]
  exact hrecords

theorem Linked.explained_of_run (h : f.Linked) (hf : f.finalized = false)
    (hm : ∀ message ∈ f.misuse, '(' ∈ message.toList) (hv : f.document.problem = none)
    {outcome : Outcome} (he : f.evaluation = .ok outcome) :
    f.Explained f.conclude.1 f.misuse outcome := by
  obtain ⟨hfault, ho⟩ := evaluation_eq_ok hv he
  obtain ⟨texts, rfl⟩ := outcomeOf_eq_ok ho
  have hrecords := h.recordsOf_conclude hf hv hfault
  have hvouch := h.vouch_iff h.length_pos _ hfault
  have hlabels : (f.run 0 f.startCandidates).records.map Record.description
      = (f.queueOf 0).map Entry.label := by
    rw [h.run_eq h.length_pos] at hfault ⊢
    exact labels_runQueue_of_none hfault
  constructor
  case passed_iff =>
    rw [hrecords, hvouch]
    simp [hv, problems_eq_nil_iff, and_assoc]
  case reason_iff => exact reason_eq_empty_iff hm _
  case invalid =>
    intro problem hp
    rw [hv] at hp
    cases hp
  case misused =>
    intro _ hproblems
    exact reason_of_problems (mt problems_eq_nil_iff.mp hproblems) _
  case failed =>
    intro _ hmisuse hopen hpassed
    have hproblems : f.problems = [] := problems_eq_nil_iff.mpr ⟨hmisuse, hopen⟩
    have hall : allPassed (f.run 0 f.startCandidates).records = false := by
      simpa [hproblems] using hpassed
    obtain ⟨i, entry, record, hfailed, hfirst, hlabel⟩ := first_failed hlabels hall
    rw [hrecords]
    refine ⟨i, entry, record, hfailed, ?_⟩
    rw [← hlabel]
    exact reason_of_failed hproblems hfirst

/-- **The verdict of every finalizer is right and explained.** Whatever calls led to a family, on
whatever members: if no fault interrupts its first finalizer, this reports one outcome and answers
with its verdict, which a raising sink may raise. The outcome passed iff the document is valid, no
block was misused or left open, and every entry of the origin passed; and the reason, which is
empty iff it passed, names the first of these that is not so. -/
theorem verdict_explained {document : Document} {description : String} {limit : Int}
    {raising : Bool} {messages : List String}
    (h : Noted (start document description limit raising) messages f) (hf : f.finalized = false)
    (hk : k < f.members.length) (hc : c.Finalizes) (hr : f.readied k c = .ok r) {outcome : Outcome}
    (he : r.evaluation = .ok outcome) :
    (f.call k c).1.reported = [outcome] ∧
      (f.call k c).2 = f.answer outcome (.verdict outcome.passed) ∧
        r.Explained (f.call k c).1 messages outcome := by
  have hreached := (h.unsettled hf).builds
  have hstart := coherent_start document description limit raising
  have hsame : r.misuse = f.misuse := readied_misuse hr
  have hmisuse : r.misuse = messages := hsame.trans (h.misuse_eq rfl hf)
  have hparens : ∀ message ∈ r.misuse, '(' ∈ message.toList :=
    hsame ▸ hreached.paren_of_misuse rfl
  have hcoherent : r.Coherent := (hreached.coherent hstart).readied hk hr
  have hbuilt := (hreached.built hstart).readied hr
  obtain ⟨hreply, _, hreported⟩ := conclude_of_evaluation hbuilt.finalized_eq he
  have hanswer : r.answer outcome (.verdict outcome.passed)
      = f.answer outcome (.verdict outcome.passed) := by
    rw [readied_shared hr]
    rfl
  rw [call_of_readied hc hr]
  refine ⟨?_, hreply.trans hanswer, ?_⟩
  · rw [hreported, hbuilt.reported_eq]
    rfl
  · cases hv : r.document.problem with
    | some problem =>
      rw [evaluation_of_invalid hv] at he
      cases he
      refine explained_of_invalid hv ?_
      simp [conclude, hbuilt.finalized_eq, start, hv, report]
    | none =>
      rw [← hmisuse]
      exact hcoherent.explained_of_run hbuilt.finalized_eq hparens hv he

/-- A chain with a failing step, whose block was ended and never begun, is verified: the reason is
not the failed step. -/
theorem verdict_explained_of_misuse :
    ∃ f outcome, Noted (start (.ofValue (.bool true)) "" 100 false) ["end() without either()"] f ∧
      f.finalized = false ∧ 0 < f.members.length ∧ Call.Finalizes .verify ∧
      f.readied 0 .verify = .ok f ∧ f.evaluation = .ok outcome ∧
      (f.call 0 .verify).1.reported = [outcome] ∧
      (f.call 0 .verify).2 = .ok (.verdict false) ∧
      outcome.reason = "end() without either()" := by
  let f₀ := start (.ofValue (.bool true)) "" 100 false
  let f := ((f₀.call 0 (.queue .isEmpty)).1.call 0 .closeBlock).1
  have h : Noted f₀ ["end() without either()"] f :=
    .call (c := .closeBlock) (.call (c := .queue .isEmpty) .start (k := 0) (by decide)) (k := 0)
      (by decide)
  obtain ⟨outcome, he, hp⟩ : ∃ outcome, f.evaluation = .ok outcome ∧ outcome.passed = false :=
    ⟨_, rfl, rfl⟩
  obtain ⟨hreported, hreply, hexplained⟩ :=
    verdict_explained (r := f) (k := 0) (c := .verify) h rfl (by decide) trivial rfl he
  refine ⟨f, outcome, h, rfl, by decide, trivial, rfl, he, hreported, ?_, ?_⟩
  · rw [hreply, answer, hp]
    rfl
  · exact hexplained.misused rfl (by simp)

end Family

end Attest

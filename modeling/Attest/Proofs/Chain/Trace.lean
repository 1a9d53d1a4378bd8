import Attest.Proofs.Chain.Isolation
import Attest.Proofs.Chain.Verdict

/-!
# Traces

A trace is rendered from the records of a run, and the record of a block holds those of the
alternatives that were run. What a reader of a trace wants to know is said of the family instead:
what was queued on a member, and what the run left in it and in its alternatives. The two agree
because no run visits a member twice, so what the record of a block holds is what is stored in its
alternatives.

The trace of a member has one line for each entry of its queue, in order. Below the line of a block
each alternative has a line with its label, and its own trace. A trace at a deeper level is the same
trace with blanks in front, so lines that begin with an icon are those of the outermost level.

## Main definitions

* `Family.alternatives` — the members that an entry runs
* `Family.Traced` — a trace tells all of a member and of the alternatives below it

## Main results

* `Record.lines_add`, `trace_add` — a deeper level puts blanks in front of every line
* `find?_failureLine` — the first line at the outermost level that shows a failure
* `Family.Coherent.traced` — what a run leaves that nothing interrupted
* `Family.traces_tell_all` — traces are complete, and the first failure in them is the reason
-/

namespace Attest

/-! ### Levels -/

theorem indent_add (level k : Nat) : indent (level + k) = indent k ++ indent level := by
  rw [← String.toList_inj, String.toList_append]
  simp only [indent, String.toList_ofList, List.replicate_append_replicate]
  congr 1
  omega

mutual

/-- **A record at a deeper level** has the same lines with blanks in front. -/
theorem Record.lines_add (level k : Nat) : ∀ r : Record,
    Record.lines (level + k) r = (Record.lines level r).map (indent k ++ ·)
  | .mk description passed message branches => by
    rw [Record.lines, Record.lines, List.map_cons, indent_add, Nat.add_right_comm,
      branchLines_add]
    simp only [String.append_assoc]

theorem branchLines_add (level k : Nat) (first : Bool) : ∀ branches : List Branch,
    branchLines (level + k) first branches = (branchLines level first branches).map (indent k ++ ·)
  | [] => rfl
  | b :: rest => by
    rw [branchLines, branchLines, List.map_append, Branch.lines_add, branchLines_add]

theorem Branch.lines_add (level k : Nat) (first : Bool) : ∀ b : Branch,
    Branch.lines (level + k) first b = (Branch.lines level first b).map (indent k ++ ·)
  | .mk passed records => by
    rw [Branch.lines, Branch.lines, List.map_cons, indent_add, Nat.add_right_comm,
      recordLines_add]
    simp only [String.append_assoc]

theorem recordLines_add (level k : Nat) : ∀ records : List Record,
    recordLines (level + k) records = (recordLines level records).map (indent k ++ ·)
  | [] => rfl
  | r :: rest => by
    rw [recordLines, recordLines, List.map_append, Record.lines_add, recordLines_add]

end

/-- **A trace at a deeper level** is the same trace with blanks in front of every line. -/
theorem trace_add (level k : Nat) (records : List Record) :
    trace (level + k) records = (trace level records).map (indent k ++ ·) :=
  recordLines_add level k records

theorem length_trace (level : Nat) (records : List Record) :
    (trace level records).length = (trace 0 records).length := by
  rw [← Nat.zero_add level, trace_add, List.length_map]

/-! ### Failures at the outermost level -/

/-- The line begins with the icon of a failure, so it stands at the outermost level. -/
def failureLine (line : String) : Bool := (Outcome.icon false).toList.isPrefixOf line.toList

theorem failureLine_of_indented {line : String} {level : Nat} (h : 0 < level) :
    failureLine (indent level ++ line) = false := by
  obtain ⟨n, rfl⟩ : ∃ n, level = n + 1 := ⟨level - 1, by omega⟩
  have hblank : (indent (n + 1)).toList = ' ' :: ' ' :: (indent n).toList := by
    simp [indent, Nat.mul_add, List.replicate_succ]
  rw [failureLine, String.toList_append, hblank]
  rfl

theorem failureLine_icon (passed : Bool) (text : String) :
    failureLine (Outcome.icon passed ++ text) = !passed := by
  rw [failureLine, String.toList_append]
  cases passed <;> rfl

/-- The lines below an entry stand at deeper levels. -/
theorem failureLine_of_branchLines {level : Nat} (h : 0 < level) {first : Bool}
    {branches : List Branch} {line : String} (hl : line ∈ branchLines level first branches) :
    failureLine line = false := by
  rw [← Nat.zero_add level, branchLines_add] at hl
  obtain ⟨text, _, rfl⟩ := List.mem_map.mp hl
  exact failureLine_of_indented h

/-- **The first line at the outermost level that shows a failure** is that of the first record of a
failed step. -/
theorem find?_failureLine : ∀ records : List Record,
    (trace 0 records).find? failureLine = (firstFailed? records).map fun r =>
      Outcome.icon false ++ " " ++ (r.description ++ ": " ++ r.message)
  | [] => rfl
  | .mk description passed message branches :: rest => by
    have hbelow : (branchLines 1 true branches).find? failureLine = none :=
      List.find?_eq_none.mpr fun line hl => by
        simp [failureLine_of_branchLines (Nat.zero_lt_one) hl]
    have ih := find?_failureLine rest
    have hempty : indent 0 = "" := rfl
    simp only [trace] at ih ⊢
    rw [recordLines, Record.lines, firstFailed?, List.cons_append, List.find?_cons, hempty,
      String.empty_append, String.append_assoc, String.append_assoc, String.append_assoc,
      failureLine_icon]
    cases passed with
    | false => simp [Record.passed, Record.description, Record.message, String.append_assoc]
    | true =>
      simp only [Bool.not_true, List.find?_append, hbelow, Option.none_or, List.find?_cons,
        Record.passed]
      exact ih

/-! ### Records of a run -/

/-- The members that an entry runs. -/
def Family.alternatives (f : Family) : Entry → List ChainId
  | .step _ => []
  | .block b => f.branchesOf b

/-- The record of an entry has the results of the alternatives that were run from some candidates,
none of which was interrupted. -/
structure Record.Tells (f : Family) (visits : List Visit) (entry : Entry) (r : Record)
    (vs : List Value) : Prop where
  description : r.description = entry.label
  branches : r.branches = (f.alternatives entry).map fun c => (f.run c vs).branch
  faultless : ∀ c ∈ f.alternatives entry, (f.run c vs).fault = none
  visited : ∀ c ∈ f.alternatives entry, (f.run c vs).visits ⊆ visits

theorem Record.Tells.mono {f : Family} {visits visits' : List Visit} {entry : Entry} {r : Record}
    {vs : List Value} (h : r.Tells f visits entry vs) (hv : visits ⊆ visits') :
    r.Tells f visits' entry vs :=
  ⟨h.description, h.branches, h.faultless, fun c hc => List.Subset.trans (h.visited c hc) hv⟩

theorem faultless_of_runBranches {run : Evaluator} {vs : List Value} : ∀ {ks : List ChainId},
    (runBranches run vs ks).fault = none → ∀ c ∈ ks, (run c vs).fault = none
  | [], _, _, hc => absurd hc List.not_mem_nil
  | k :: rest, h, c, hc => by
    rw [runBranches] at h
    split at h
    · cases h
    · next hk =>
      rcases List.mem_cons.mp hc with rfl | hc
      · exact hk
      · exact faultless_of_runBranches h c hc

namespace Family

variable {f left : Family} {k : ChainId} {vs : List Value}

theorem tells_of_runEntry {entry : Entry} {ran : Ran} {record : Record} {visits : List Visit}
    (h : runEntry f.run f.branchesOf vs entry = (.ok (ran, record), visits)) :
    record.Tells f visits entry vs := by
  have hdescription := description_of_runEntry h
  cases entry with
  | step s =>
    simp only [runEntry, Prod.mk.injEq] at h
    obtain ⟨_, _, he⟩ := map_eq_ok h.1
    rw [← (Prod.mk.inj he).2] at hdescription ⊢
    exact ⟨hdescription, rfl, by simp [alternatives], by simp [alternatives]⟩
  | block b =>
    obtain ⟨hvisits, hnone⟩ := runBlock_visits f.run vs (f.branchesOf b)
    simp only [runEntry_block, Prod.mk.injEq] at h
    obtain ⟨⟨ran', branches⟩, hran, he⟩ := map_eq_ok h.1
    have hfaultless := faultless_of_runBranches (hnone _ hran)
    have hbranches : branches = (f.branchesOf b).map fun c => (f.run c vs).branch := by
      simp only [runBlock, runBranches_of_none hfaultless] at hran
      split at hran
      · cases hran
        rfl
      · split at hran
        · cases hran
        · cases hran
          rfl
    refine ⟨hdescription, ?_, hfaultless, fun c hc v hv => ?_⟩
    · rw [← (Prod.mk.inj he).2]
      exact hbranches
    · rw [← h.2, hvisits, runBranches_of_none hfaultless]
      exact List.mem_flatMap.mpr ⟨c, hc, hv⟩

/-- **The records of a queue** tell of its entries, one of each. -/
theorem tells_of_runQueue : ∀ {queue : List Entry} {vs : List Value},
    (runQueue f.run f.branchesOf queue vs).fault = none →
      List.Forall₂ (fun entry (record : Record) => ∃ ws,
          record.Tells f (runQueue f.run f.branchesOf queue vs).visits entry ws)
        queue (runQueue f.run f.branchesOf queue vs).records
  | [], _, _ => .nil
  | entry :: rest, vs, h => by
    rw [runQueue] at h ⊢
    split at h
    · cases h
    · next ran record visits he =>
      refine .cons ⟨vs, (tells_of_runEntry he).mono (List.subset_append_left ..)⟩ ?_
      refine (tells_of_runQueue h).imp fun entry record htells => ?_
      obtain ⟨ws, hws⟩ := htells
      exact ⟨ws, hws.mono (List.subset_append_right ..)⟩

/-! ### What a run leaves -/

/-- The lines below that of an entry: for each alternative its label, with the icon of its verdict,
and its trace. -/
def alternativeLines (f : Family) (level : Nat) (entry : Entry) : List String :=
  (f.alternatives entry).zipIdx.flatMap fun (c, i) =>
    (indent level ++ Outcome.icon (f.memberPassed c) ++ " " ++ branchLabel (i == 0))
      :: trace (level + 1) (f.recordsOf c)

/-- The lines of an entry: its own, with the icon of its result, and those of its alternatives. -/
def entryLines (f : Family) (level : Nat) (entry : Entry) (record : Record) : List String :=
  (indent level ++ Outcome.icon record.passed ++ " " ++ entry.label ++ ": " ++ record.message)
    :: f.alternativeLines (level + 1) entry

/-- **A trace tells all**: it has the lines of every entry that was queued, in order, and the traces
of the alternatives in them tell all too. -/
inductive Traced (f : Family) : ChainId → Prop where
  | intro {k : ChainId}
    (complete : (f.recordsOf k).length = (f.queueOf k).length)
    (lines : ∀ level, trace level (f.recordsOf k)
      = ((f.queueOf k).zip (f.recordsOf k)).flatMap fun (entry, record) =>
          f.entryLines level entry record)
    (count : ∀ level, (trace level (f.recordsOf k)).length
      = ((f.queueOf k).map fun entry => 1 + ((f.alternatives entry).map fun c =>
          1 + (trace level (f.recordsOf c)).length).sum).sum)
    (below : ∀ entry ∈ f.queueOf k, ∀ c ∈ f.alternatives entry, f.Traced c) : f.Traced k

/-- What the record of an entry holds is what is stored in the alternatives. -/
structure Shows (f : Family) (entry : Entry) (r : Record) : Prop where
  description : r.description = entry.label
  branches : r.branches
    = (f.alternatives entry).map fun c => .mk (f.memberPassed c) (f.recordsOf c)

theorem branchLines_eq (level i : Nat) (ks : List ChainId) :
    branchLines level (i == 0) (ks.map fun c => .mk (f.memberPassed c) (f.recordsOf c))
      = (ks.zipIdx i).flatMap fun (c, i) =>
          (indent level ++ Outcome.icon (f.memberPassed c) ++ " " ++ branchLabel (i == 0))
            :: trace (level + 1) (f.recordsOf c) := by
  induction ks generalizing i with
  | nil => rfl
  | cons c rest ih =>
    rw [List.map_cons, branchLines, Branch.lines, List.zipIdx_cons, List.flatMap_cons, ← ih (i + 1)]
    rfl

theorem Shows.lines {entry : Entry} {r : Record} (h : f.Shows entry r) (level : Nat) :
    r.lines level = f.entryLines level entry r := by
  cases r with
  | mk description passed message branches =>
    obtain ⟨hdescription, hbranches⟩ := h
    dsimp only [Record.description, Record.branches] at hdescription hbranches
    rw [Record.lines, hdescription, hbranches]
    exact congrArg _ (branchLines_eq (level + 1) 0 _)

theorem lines_of_shows {queue : List Entry} {records : List Record}
    (h : List.Forall₂ f.Shows queue records) (level : Nat) :
    trace level records
      = (queue.zip records).flatMap fun (entry, record) => f.entryLines level entry record := by
  induction h with
  | nil => rfl
  | cons hfirst _ ih =>
    rw [List.zip_cons_cons, List.flatMap_cons, ← ih]
    dsimp only
    rw [← hfirst.lines level]
    rfl

theorem length_alternativeLines (f : Family) (level i : Nat) (ks : List ChainId) :
    ((ks.zipIdx i).flatMap fun (c, i) =>
        (indent level ++ Outcome.icon (f.memberPassed c) ++ " " ++ branchLabel (i == 0))
          :: trace (level + 1) (f.recordsOf c)).length
      = (ks.map fun c => 1 + (trace 0 (f.recordsOf c)).length).sum := by
  induction ks generalizing i with
  | nil => rfl
  | cons c rest ih =>
    rw [List.zipIdx_cons, List.flatMap_cons, List.length_append, ih, List.map_cons, List.sum_cons,
      List.length_cons, length_trace (level + 1), Nat.add_comm 1]

theorem count_of_shows {queue : List Entry} {records : List Record}
    (h : List.Forall₂ f.Shows queue records) (level : Nat) :
    (trace level records).length = (queue.map fun entry => 1 + ((f.alternatives entry).map fun c =>
      1 + (trace level (f.recordsOf c)).length).sum).sum := by
  rw [lines_of_shows h]
  simp only [length_trace level]
  induction h with
  | nil => rfl
  | cons _ _ ih =>
    rw [List.zip_cons_cons, List.flatMap_cons, List.length_append, ih, List.map_cons, List.sum_cons]
    congr 1
    rw [entryLines, List.length_cons, alternativeLines, length_alternativeLines, Nat.add_comm]

/-! ### Runs that nothing interrupts -/

/-- What the visits of a run left is stored in another family, and nothing else is different. -/
structure Stores (f : Family) (visits : List Visit) (left : Family) : Prop where
  plan : f.SamePlan left
  visited : ∀ v ∈ visits, left.recordsOf v.member = v.records

theorem Stores.subset {visits visits' : List Visit} (h : f.Stores visits left)
    (hv : visits' ⊆ visits) : f.Stores visits' left :=
  ⟨h.plan, fun v hmem => h.visited v (hv hmem)⟩

theorem lt_of_alternative (h : f.Linked) {entry : Entry} (he : entry ∈ f.queueOf k) {c : ChainId}
    (hc : c ∈ f.alternatives entry) : k < c ∧ c < f.members.length := by
  cases entry with
  | step s => cases hc
  | block b => exact h.lt_of_child (mem_children.mpr ⟨b, he, hc⟩)

/-- What is stored of a member that was run. -/
theorem Linked.recordsOf_stores (h : f.Linked) (hk : k < f.members.length)
    (hs : f.Stores (f.run k vs).visits left) : left.recordsOf k = (f.run k vs).records :=
  hs.visited _ (h.own_visit hk vs)

theorem memberPassed_eq {f : Family} {k : ChainId} (hk : k < f.members.length) :
    f.memberPassed k
      = ((f.recordsOf k).length == (f.queueOf k).length && allPassed (f.recordsOf k)) := by
  obtain ⟨m, hm⟩ : ∃ m, f.member? k = some m := ⟨_, List.getElem?_eq_getElem hk⟩
  simp only [memberPassed, recordsOf, queueOf, hm]
  rfl

/-- The verdict that is read off what is stored of a member is that of its run. -/
theorem Linked.memberPassed_stores (h : f.Linked) (hk : k < f.members.length)
    (hnone : (f.run k vs).fault = none) (hs : f.Stores (f.run k vs).visits left) :
    left.memberPassed k = (f.run k vs).passed := by
  have hlength : (f.run k vs).records.length = (f.queueOf k).length := by
    simpa using congrArg List.length (h.visit_complete hk hnone (h.own_visit hk vs))
  rw [memberPassed_eq (hs.plan.length_members ▸ hk), h.recordsOf_stores hk hs,
    ← hs.plan.queueOf_eq, hlength, Progress.passed, hnone]
  simp

theorem SamePlan.alternatives_eq (h : f.SamePlan left) : f.alternatives = left.alternatives := by
  funext entry
  cases entry with
  | step s => rfl
  | block b => exact congrFun h.branchesOf_eq b

/-- If what the visits of a run left is stored, each record that tells of an entry shows it. -/
theorem Linked.shows_of_tells (h : f.Linked) {visits : List Visit} (hs : f.Stores visits left)
    {entry : Entry} {record : Record} (he : entry ∈ f.queueOf k)
    (ht : record.Tells f visits entry vs) : left.Shows entry record where
  description := ht.description
  branches := by
    rw [ht.branches, hs.plan.alternatives_eq]
    refine List.map_congr_left fun c hc => ?_
    rw [← hs.plan.alternatives_eq] at hc
    have hlt := (lt_of_alternative h he hc).2
    have hstores := hs.subset (ht.visited c hc)
    rw [Progress.branch, h.memberPassed_stores hlt (ht.faultless c hc) hstores,
      h.recordsOf_stores hlt hstores]

/-- **What a run leaves that nothing interrupted** has traces that tell all. By induction from the
last member on, since alternatives have greater numbers than their owners. -/
theorem Linked.traced (h : f.Linked) (hk : k < f.members.length)
    (hnone : (f.run k vs).fault = none) (hs : f.Stores (f.run k vs).visits left) :
    left.Traced k := by
  induction hn : f.members.length - k using Nat.strongRecOn generalizing k vs with
  | ind n ih =>
    have hrecords := h.recordsOf_stores hk hs
    rw [h.run_eq hk] at hnone hs hrecords
    have hqueue := hs.plan.queueOf_eq k
    have hstores : f.Stores (runQueue f.run f.branchesOf (f.queueOf k) vs).visits left :=
      hs.subset (List.subset_append_left ..)
    have htells := tells_of_runQueue hnone
    have hentries : List.Forall₂ (fun entry record =>
        (∀ c ∈ f.alternatives entry, left.Traced c) ∧ left.Shows entry record)
        (f.queueOf k) (left.recordsOf k) := by
      rw [hrecords]
      refine List.forall₂_iff_zip.mpr ⟨htells.length_eq, fun {entry record} hmem => ?_⟩
      have he := (List.of_mem_zip hmem).1
      obtain ⟨ws, ht⟩ := List.forall₂_zip htells hmem
      refine ⟨fun c hc => ?_, h.shows_of_tells hstores he ht⟩
      obtain ⟨hlt, hlength⟩ := lt_of_alternative h he hc
      exact ih _ (by simp only [ChainId] at *; omega) hlength (ht.faultless c hc)
        (hstores.subset (ht.visited c hc)) rfl
    obtain ⟨hbelow, hshows⟩ := (List.forall₂_and_left _ _).mp hentries
    rw [hqueue] at hbelow hshows
    rw [hs.plan.alternatives_eq] at hbelow
    exact .intro hshows.length_eq.symm (lines_of_shows hshows) (count_of_shows hshows) hbelow

/-- Storing what a run left, which visits no member twice, stores what each visit left. -/
theorem Coherent.stores (h : f.Coherent) (hk : k < f.members.length)
    (hnone : (f.run k vs).fault = none) {g : Family} (hg : f.SamePlan g) :
    f.Stores (f.run k vs).visits (g.recordVisits (f.run k vs).visits) where
  plan := hg.trans (samePlan_recordVisits g _)
  visited := by
    intro v hv
    have hnodup : ((f.run k vs).visits.map Visit.member).Nodup := by
      rw [run, visited_of_none hnone]
      exact h.descent_nodup (by omega) hk
    rw [recordsOf, member?_recordVisits_of_nodup hnodup hv]
    cases hm : g.member? v.member with
    | some m => rfl
    | none =>
      -- nothing was queued on what is no member, so nothing was left there
      have hqueue : f.queueOf v.member = [] := by
        rw [hg.queueOf_eq, queueOf, hm]
        rfl
      have hlabels := visit_labels hv
      rw [hqueue, List.map_nil, List.prefix_nil, List.map_eq_nil_iff] at hlabels
      exact hlabels.symm

theorem Coherent.stores_conclude (h : f.Coherent) (hf : f.finalized = false)
    (hv : f.document.problem = none) (hnone : (f.run 0 f.startCandidates).fault = none) :
    f.Stores (f.run 0 f.startCandidates).visits f.conclude.1 where
  plan := samePlan_conclude f
  visited := by
    intro v hmem
    have hfinalized : f.SamePlan { f with finalized := true } := ⟨rfl, rfl, rfl⟩
    rw [recordsOf, conclude_member? hf hv hnone]
    exact (h.stores h.length_pos hnone hfinalized).visited v hmem

/-- **Traces tell all.** Whatever calls led to a family: if nothing interrupts a run of a member, the
trace of what it leaves has for each entry queued, in order, one line with the icon of its result,
followed for each alternative by a line with its label and verdict and by its trace, which tells all
of it in turn. So the number of lines is the sum over the entries of one and, for each alternative,
one more than the lines of its trace. A trace at a deeper level has as many more blanks in front of
every line. A finalizer reports such a trace of the origin; if the outcome is a failure and no block
was misused or left open, the first line at the outermost level that shows a failure is the reason
behind the icon. -/
theorem traces_tell_all {document : Document} {description : String} {limit : Int}
    {raising : Bool} (hf : Reached (fun _ => True) (start document description limit raising) f) :
    (∀ k < f.members.length, ∀ vs, (f.run k vs).fault = none →
      let left := f.recordVisits (f.run k vs).visits
      left.recordsOf k = (f.run k vs).records ∧ left.Traced k) ∧
    (∀ records level more,
      trace (level + more) records = (trace level records).map (indent more ++ ·)) ∧
    ∀ k < f.members.length, ∀ c : Call, c.Finalizes → f.finalized = false →
      document.problem = none → ∀ r, f.readied k c = .ok r → ∀ outcome,
      r.evaluation = .ok outcome →
        let after := (f.call k c).1
        after.reported = [outcome] ∧ after.Traced 0 ∧ outcome.trace = after.traceOf 0 ∧
        (outcome.passed = false → r.problems = [] →
          outcome.trace.find? failureLine
            = some (Outcome.icon false ++ " " ++ outcome.reason)) := by
  have hstart := coherent_start document description limit raising
  have hcoherent := hf.coherent_of_any hstart
  refine ⟨fun k hk vs hnone => ?_, fun records level more => trace_add level more records, ?_⟩
  · have hstores := hcoherent.stores hk hnone (.refl f)
    exact ⟨hcoherent.recordsOf_stores hk hstores, hcoherent.traced hk hnone hstores⟩
  · intro k hk c hc hfin hv r hr outcome he
    obtain ⟨messages, hnoted⟩ := reached_iff_noted.mp hf
    have hbuilt := ((hnoted.unsettled hfin).builds.built hstart).readied hr
    have hrc := hcoherent.readied hk hr
    have hrv : r.document.problem = none := by rw [hbuilt.document_eq]; exact hv
    obtain ⟨hnone, ho⟩ := evaluation_eq_ok hrv he
    have hrecords := hrc.recordsOf_conclude hbuilt.finalized_eq hrv hnone
    obtain ⟨-, -, hreported⟩ := conclude_of_evaluation hbuilt.finalized_eq he
    obtain ⟨texts, rfl⟩ := outcomeOf_eq_ok ho
    rw [call_of_readied hc hr]
    refine ⟨?_, ?_, ?_, fun hpassed hproblems => ?_⟩
    · rw [hreported, hbuilt.reported_eq]
      rfl
    · exact hrc.traced hrc.length_pos hnone (hrc.stores_conclude hbuilt.finalized_eq hrv hnone)
    · exact congrArg (trace 0) hrecords.symm
    · have hall : allPassed (r.run 0 r.startCandidates).records = false := by
        simpa [hproblems] using hpassed
      obtain ⟨record, hfirst⟩ : ∃ record,
          firstFailed? (r.run 0 r.startCandidates).records = some record :=
        Option.isSome_iff_exists.mp (List.find?_isSome.mpr (by simpa [allPassed] using hall))
      dsimp only
      rw [find?_failureLine, hfirst, reason_of_failed hproblems hfirst]
      rfl

/-- A block of which both alternatives fail. -/
theorem traces_tell_all_of_failed_block :
    ∃ f outcome, Reached (fun _ => True) (start (.ofValue .null) "" 80 false) f ∧
      f.finalized = false ∧ f.evaluation = .ok outcome ∧ f.problems = [] ∧
      (f.call 0 .verify).1.Traced 0 ∧
      outcome.trace.find? failureLine = some "❌ either: none of 2 branches passed" ∧
      outcome.trace = ["❌ either: none of 2 branches passed", "  ❌ either",
        "    ❌ is_object: [0] expected object, got null", "  ❌ or_else",
        "    ✅ is_null: all null", "    ❌ is_empty: [0] expected array, object or string, got null"] := by
  let f₁ := ((start (.ofValue .null) "" 80 false).call 0 .openBlock).1
  let f₂ := (f₁.call 1 (.queue (.isKind .object))).1
  let f₃ := (f₂.call 1 .nextBranch).1
  let f₄ := (f₃.call 2 (.queue (.isKind .null))).1
  let f₅ := (f₄.call 2 (.queue .isEmpty)).1
  let f := (f₅.call 2 .closeBlock).1
  have hf : Reached (fun _ => True) (start (.ofValue .null) "" 80 false) f :=
    .call (.call (.call (.call (.call (.call .start (k := 0) (by decide) trivial) (k := 1)
      (by decide) trivial) (k := 1) (by decide) trivial) (k := 2) (by decide) trivial) (k := 2)
      (by decide) trivial) (k := 2) (by decide) trivial
  let shown (o : Outcome) := (o.passed, o.trace, Outcome.icon false ++ " " ++ o.reason)
  have hshown : f.evaluation.map shown = .ok (false,
      ["❌ either: none of 2 branches passed", "  ❌ either",
        "    ❌ is_object: [0] expected object, got null", "  ❌ or_else",
        "    ✅ is_null: all null",
        "    ❌ is_empty: [0] expected array, object or string, got null"],
      "❌ either: none of 2 branches passed") := by decide +kernel
  cases he : f.evaluation with
  | error fault => rw [he] at hshown; nomatch hshown
  | ok outcome =>
    rw [he] at hshown
    obtain ⟨hpassed, hrest⟩ := Prod.mk.inj (Except.ok.inj hshown)
    obtain ⟨htrace, hreason⟩ := Prod.mk.inj hrest
    obtain ⟨-, -, hall⟩ := traces_tell_all hf
    obtain ⟨-, htraced, -, hfirst⟩ :=
      hall 0 (by decide) .verify (by simp [Call.Finalizes]) rfl rfl f rfl outcome he
    refine ⟨f, outcome, hf, rfl, he, rfl, htraced, ?_, htrace⟩
    rw [hfirst hpassed rfl, hreason]

end Family

end Attest

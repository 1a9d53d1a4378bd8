import Mathlib.Data.List.Nodup
import Attest.Proofs.Chain.Conclusion

/-!
# Every chain of a family is run once

Building calls may be made on any member that a user still holds: an outer chain, an alternative
of a closed block, an ancestor. Whatever their order, a run that nothing interrupts either visits
every member exactly once and leaves a record of every entry queued, or begins with blocks still
open and then reports a failure.

The proof counts. A run visits a member and then, for each visit, the alternatives that the queue
of the member visited runs (`Linked.descent_perm`). Only one queue runs an alternative, and runs it
once (`Coherent.children_nodup`), so it is visited at most as often as the member it was forked
from. If no block is open, every member but the origin is an alternative of some queue
(`Coherent.children_perm`), so a run of the origin comes to all of them.

## Main definitions

* `Family.descent` — the members that a run visits, in order

## Main results

* `Family.visited_of_none` — a run that was not interrupted visits the descent
* `Family.Coherent.descent_nodup` — no run visits a member twice
* `Family.Coherent.descent_range` — the descent from the origin has every member once
* `Family.every_entry_runs_once` — no queued entry is lost or run twice
-/

namespace Attest

/-! ### Counting -/

section Count

variable {α β : Type} [DecidableEq α]

/-- What occurs in the contribution of one element only occurs once for each such element. -/
theorem count_flatMap_of_unique {contribution : β → List α} [DecidableEq β] {a : α} {b : β}
    (h : ∀ i, a ∈ contribution i → i = b) (l : List β) :
    (l.flatMap contribution).count a = l.count b * (contribution b).count a := by
  induction l with
  | nil => simp
  | cons i l ih =>
    rw [List.flatMap_cons, List.count_append, ih]
    by_cases hi : i = b
    · rw [hi, List.count_cons_self, Nat.add_mul, Nat.one_mul, Nat.add_comm]
    · have hzero : (contribution i).count a = 0 := List.count_eq_zero.mpr fun ha => hi (h i ha)
      rw [hzero, List.count_cons_of_ne hi, Nat.zero_add]

end Count

theorem flatMap_range_getElem? {α β : Type} (contribution : Option α → List β) (l : List α) :
    (List.range l.length).flatMap (fun i => contribution l[i]?)
      = l.flatMap fun a => contribution (some a) := by
  induction l using List.reverseRecOn with
  | nil => rfl
  | append_singleton l a ih =>
    have hold : (List.range l.length).flatMap (fun i => contribution (l ++ [a])[i]?)
        = (List.range l.length).flatMap fun i => contribution l[i]? := by
      refine List.flatMap_congr fun i hi => ?_
      rw [List.getElem?_append_left (List.mem_range.mp hi)]
    rw [List.length_append, List.length_singleton, List.range_succ, List.flatMap_append,
      List.flatMap_append, hold, ih]
    simp

/-! ### The visits of a run -/

section Visits

variable {run : Evaluator} {branchesOf : Nat → List ChainId} {below : ChainId → List ChainId}

theorem visits_runBranches {candidates : List Value} : ∀ {ks : List ChainId},
    (∀ c ∈ ks, (run c candidates).fault = none →
      (run c candidates).visits.map Visit.member = below c) →
    (runBranches run candidates ks).fault = none →
      (runBranches run candidates ks).visits.map Visit.member = ks.flatMap below
  | [], _, _ => rfl
  | k :: rest, h, hn => by
    rw [runBranches] at hn ⊢
    split at hn
    · cases hn
    · next hf =>
      have hrest := visits_runBranches (fun c hc => h c (List.mem_cons_of_mem _ hc)) hn
      simp only [List.map_append, List.flatMap_cons, hrest, h k List.mem_cons_self hf]

theorem visits_runQueue : ∀ {queue : List Entry} {candidates : List Value},
    (∀ b c, .block b ∈ queue → c ∈ branchesOf b → ∀ ws, (run c ws).fault = none →
      (run c ws).visits.map Visit.member = below c) →
    (runQueue run branchesOf queue candidates).fault = none →
      (runQueue run branchesOf queue candidates).visits.map Visit.member
        = ((queue.filterMap Entry.block?).flatMap branchesOf).flatMap below
  | [], _, _, _ => rfl
  | entry :: rest, candidates, h, hn => by
    rw [runQueue] at hn ⊢
    split at hn
    · cases hn
    · next ran record visits he =>
      have hrest := visits_runQueue (fun b c hb => h b c (List.mem_cons_of_mem _ hb)) hn
      cases entry with
      | step s =>
        simp only [runEntry, Prod.mk.injEq] at he
        rw [List.filterMap_cons_none (rfl : Entry.block? (.step s) = none), ← he.2]
        exact hrest
      | block b =>
        simp only [runEntry_block, Prod.mk.injEq] at he
        obtain ⟨hvisits, hnone⟩ := runBlock_visits run candidates (branchesOf b)
        obtain ⟨result, hresult, _⟩ := map_eq_ok he.1
        have hblock := visits_runBranches
          (fun c hc => h b c List.mem_cons_self hc candidates) (hnone result hresult)
        rw [List.filterMap_cons_some (rfl : Entry.block? (.block b) = some b), ← he.2, hvisits]
        simp only [List.map_append, hblock, hrest, List.flatMap_cons, List.flatMap_append]

end Visits

namespace Family

/-- The members that a run visits, in order: the alternatives of a queue before the member with
that queue. -/
def descent (f : Family) : Nat → ChainId → List ChainId
  | 0, k => [k]
  | d + 1, k => (f.children k).flatMap (f.descent d) ++ [k]

/-- **A run that was not interrupted visits the descent.** -/
theorem visited_of_none {f : Family} : ∀ {d k : Nat} {candidates : List Value},
    (runMember f d k candidates).fault = none →
      (runMember f d k candidates).visits.map Visit.member = f.descent d k
  | 0, _, _, _ => rfl
  | d + 1, k, candidates, h => by
    have hbelow : (runQueue (runMember f d) f.branchesOf (f.queueOf k) candidates).visits.map
        Visit.member = (f.children k).flatMap (f.descent d) :=
      visits_runQueue (fun b c _ _ ws hn => visited_of_none hn) h
    rw [queueOf] at hbelow
    simp only [runMember, List.map_append, hbelow]
    rfl

/-- If the bound exceeds what is left of the members, the descent has the member itself, and for
each of its elements the alternatives that this one runs. -/
theorem Linked.descent_perm {f : Family} (h : f.Linked) : ∀ {d k : Nat},
    f.members.length ≤ d + k → k < f.members.length →
      (f.descent d k).Perm (k :: (f.descent d k).flatMap f.children)
  | 0, k, hd, hk => absurd hk (by omega)
  | d + 1, k, hd, hk => by
    have hbelow : ∀ {l : List Nat}, (∀ c ∈ l, k < c ∧ c < f.members.length) →
        (l.flatMap (f.descent d)).Perm (l ++ (l.flatMap (f.descent d)).flatMap f.children) := by
      intro l hl
      induction l with
      | nil => exact .refl _
      | cons c l ih =>
        obtain ⟨hlt, hc⟩ := hl c List.mem_cons_self
        have hhead := h.descent_perm (d := d) (k := c) (by omega) hc
        have htail := ih fun c hc => hl c (List.mem_cons_of_mem _ hc)
        simp only [List.flatMap_cons, List.flatMap_append, List.cons_append]
        refine (hhead.append htail).trans ((List.Perm.cons c ?_))
        exact List.perm_append_comm_assoc ..
    have hchildren := hbelow fun c hc => h.lt_of_child hc
    rw [descent, List.flatMap_append, List.flatMap_singleton]
    refine (List.perm_append_singleton k _).trans (List.Perm.cons k (hchildren.trans ?_))
    exact List.perm_append_comm

/-- The alternatives that queues run are those of the blocks in them. -/
theorem flatMap_children (f : Family) :
    (List.range f.members.length).flatMap f.children = f.closedBlocks.flatMap f.branchesOf := by
  have hq := flatMap_range_getElem? (fun m? =>
    ((((m?.map Member.queue).getD []).filterMap Entry.block?).flatMap f.branchesOf)) f.members
  refine Eq.trans hq ?_
  rw [closedBlocks, List.flatMap_assoc]
  rfl

theorem flatMap_branchesOf (f : Family) :
    (List.range f.blocks.length).flatMap f.branchesOf = f.blocks.flatMap Block.branches :=
  flatMap_range_getElem? (fun b? => (b?.map Block.branches).getD []) f.blocks

/-- Every member but the origin is an alternative of one block, open or not, once. -/
theorem Coherent.branches_perm {f : Family} (h : f.Coherent) :
    ((f.openBlocks ++ f.closedBlocks).flatMap f.branchesOf).Perm
      (List.range' 1 (f.members.length - 1)) := by
  refine (h.placed.flatMap_right f.branchesOf).trans ?_
  rw [flatMap_branchesOf]
  exact h.branches

/-- **If no block is open, every member but the origin is an alternative of one queue, once.** -/
theorem Coherent.children_perm {f : Family} (h : f.Coherent) (ho : f.openBlocks = []) :
    ((List.range f.members.length).flatMap f.children).Perm
      (List.range' 1 (f.members.length - 1)) := by
  have hbranches := h.branches_perm
  rw [ho, List.nil_append] at hbranches
  rw [flatMap_children]
  exact hbranches

/-- **No queue runs an alternative twice,** whatever blocks are open. -/
theorem Coherent.children_nodup {f : Family} (h : f.Coherent) {k : Nat}
    (hk : k < f.members.length) : (f.children k).Nodup := by
  have hbranches := h.branches_perm.nodup_iff.mpr (List.nodup_range' ..)
  rw [List.flatMap_append, ← flatMap_children] at hbranches
  exact (List.nodup_flatMap.mp (List.nodup_append.mp hbranches).2.1).1 k (List.mem_range.mpr hk)

/-- Only one member runs an alternative: the one that it was forked from. -/
theorem Linked.eq_of_children {f : Family} (h : f.Linked) {i j k : Nat} (hi : j ∈ f.children i)
    (hk : j ∈ f.children k) : i = k := by
  obtain ⟨_, m, _, hm, hparent, _, _⟩ := h.forked_of_child hi
  obtain ⟨_, n, _, hn, hparent', _, _⟩ := h.forked_of_child hk
  obtain rfl : m = n := Option.some.inj (hm.symm.trans hn)
  exact Option.some.inj (hparent.symm.trans hparent')

/-- **A run visits no member twice,** wherever it begins. -/
theorem Coherent.descent_nodup {f : Family} (h : f.Coherent) {d k : Nat}
    (hd : f.members.length ≤ d + k) (hk : k < f.members.length) : (f.descent d k).Nodup := by
  have hperm := h.descent_perm hd hk
  have hle : ∀ j ∈ f.descent d k, k ≤ j := by
    intro j
    induction j using Nat.strongRecOn with
    | ind j ih =>
      intro hj
      rcases List.mem_cons.mp (hperm.mem_iff.mp hj) with rfl | hj
      · exact Nat.le_refl _
      · obtain ⟨i, hi, hji⟩ := List.mem_flatMap.mp hj
        have hij := (h.lt_of_child hji).1
        exact Nat.le_trans (ih i hij hi) (Nat.le_of_lt hij)
  -- by induction on the member, since it is visited at most as often as the one it was forked from
  refine List.nodup_iff_count_le_one.mpr fun j => ?_
  induction j using Nat.strongRecOn with
  | ind j ih =>
    rw [hperm.count_eq]
    by_cases hchild : ∃ i, j ∈ f.children i
    · obtain ⟨i, hji⟩ := hchild
      have hij := h.lt_of_child hji
      rw [List.count_cons, count_flatMap_of_unique fun i' hi' => h.eq_of_children hi' hji]
      by_cases hjk : k = j
      · have hi : (f.descent d k).count i = 0 :=
          List.count_eq_zero.mpr fun hi => absurd (hle i hi) (by omega)
        rw [hi]
        simp [hjk]
      · have hilt : i < f.members.length := Nat.lt_trans hij.1 hij.2
        have hone := List.nodup_iff_count_le_one.mp (h.children_nodup hilt) j
        simpa [hjk] using Nat.mul_le_mul (ih i hij.1) hone
    · have hzero : ((f.descent d k).flatMap f.children).count j = 0 :=
        List.count_eq_zero.mpr fun hj =>
          let ⟨i, _, hji⟩ := List.mem_flatMap.mp hj
          hchild ⟨i, hji⟩
      rw [List.count_cons, hzero]
      split <;> omega

/-- **The descent from the origin has every member once.** -/
theorem Coherent.descent_range {f : Family} (h : f.Coherent) (ho : f.openBlocks = []) :
    (f.descent f.members.length 0).Perm (List.range f.members.length) := by
  have hperm := h.descent_perm (d := f.members.length) (k := 0) (by omega) h.length_pos
  refine (List.perm_ext_iff_of_nodup (h.descent_nodup (by omega) h.length_pos)
    List.nodup_range).mpr fun j => ?_
  rw [List.mem_range]
  constructor
  · intro hj
    rcases List.mem_cons.mp (hperm.mem_iff.mp hj) with rfl | hj
    · exact h.length_pos
    · obtain ⟨i, _, hji⟩ := List.mem_flatMap.mp hj
      exact (h.lt_of_child hji).2
  · -- by induction on the member, since it is visited below the one it was forked from
    induction j using Nat.strongRecOn with
    | ind j ih =>
      intro hj
      refine hperm.mem_iff.mpr (List.mem_cons.mpr ?_)
      rcases Nat.eq_zero_or_pos j with rfl | hpos
      · exact .inl rfl
      · have hchild : j ∈ (List.range f.members.length).flatMap f.children :=
          (h.children_perm ho).mem_iff.mpr (List.mem_range'_1.mpr (by omega))
        obtain ⟨p, hp, hjp⟩ := List.mem_flatMap.mp hchild
        have hmem := ih p (h.lt_of_child hjp).1 (List.mem_range.mp hp)
        exact .inr (List.mem_flatMap.mpr ⟨p, hmem, hjp⟩)

/-! ### Finalizers -/

/-- A member is deeper than those it was forked from, so running alternatives comes to an end. -/
theorem Linked.children_wellFounded {f : Family} (h : f.Linked) :
    WellFounded fun c k => c ∈ f.children k := by
  refine Subrelation.wf (r := fun c k => f.members.length - c < f.members.length - k) ?_
    (InvImage.wf (fun k => f.members.length - k) Nat.lt_wfRel.wf)
  intro c k hc
  obtain ⟨hlt, hc⟩ := h.lt_of_child hc
  omega

/-- After a run that was not interrupted and began with no block open, every member was visited
once and has a record of each entry. -/
theorem Coherent.complete {f : Family} (h : f.Coherent) (ho : f.openBlocks = [])
    {candidates : List Value} (hnone : (f.run 0 candidates).fault = none) :
    ((f.run 0 candidates).visits.map Visit.member).Perm (List.range f.members.length) ∧
      ∀ j < f.members.length, ∃ m, (f.ran (f.run 0 candidates)).member? j = some m ∧
        m.queue = f.queueOf j ∧ m.records.map Record.description = m.queue.map Entry.label := by
  have hperm : ((f.run 0 candidates).visits.map Visit.member).Perm
      (List.range f.members.length) := by
    rw [run, visited_of_none hnone]
    exact h.descent_range ho
  refine ⟨hperm, fun j hj => ?_⟩
  have hlength : (f.ran (f.run 0 candidates)).members.length = f.members.length :=
    length_members_recordVisits ..
  obtain ⟨m, hm⟩ : ∃ m, (f.ran (f.run 0 candidates)).member? j = some m :=
    ⟨_, List.getElem?_eq_getElem (by rw [hlength]; exact hj)⟩
  obtain ⟨old, hold, hq, _, _, hlast⟩ := member_of_recordVisits hm
  have hqueue : m.queue = f.queueOf j := hq.trans (queueOf_of_some hold).symm
  refine ⟨m, hm, hqueue, ?_⟩
  rcases hlast with ⟨hnever, _⟩ | ⟨v, hv, hvj, hrecords, _⟩
  · obtain ⟨v, hv, hvj⟩ := List.mem_map.mp (hperm.mem_iff.mpr (List.mem_range.mpr hj))
    exact absurd hvj (hnever v hv)
  · rw [hrecords, hqueue, ← hvj]
    exact h.visit_complete h.length_pos hnone hv

/-- A run that begins with a block open does not pass: it reports a failed outcome, unless its
candidates cannot be shown. -/
theorem conclude_of_open {f : Family} (hf : f.finalized = false)
    (hv : f.document.problem = none) (ho : f.openBlocks ≠ [])
    (hnone : (f.run 0 f.startCandidates).fault = none) :
    (∃ outcome, f.conclude.1.reported = f.reported ++ [outcome] ∧ outcome.passed = false ∧
        f.conclude.2 = if f.raising then .error (.failedOutcome outcome) else .ok false) ∨
      ∃ fault, f.outcomeOf (f.run 0 f.startCandidates) = .error fault ∧
        f.conclude.2 = .error fault := by
  cases hshown : f.outcomeOf (f.run 0 f.startCandidates) with
  | error fault => exact .inr ⟨fault, rfl, by rw [conclude_of_hidden hf hv hnone hshown]⟩
  | ok outcome =>
    have hfailed : outcome.passed = false := by
      have hproblems : f.problems.isEmpty = false := by
        cases hb : f.openBlocks with
        | nil => exact absurd hb ho
        | cons b rest => simp [problems, hb]
      rw [passed_of_outcomeOf hshown, hproblems, Bool.false_and]
    refine .inl ⟨outcome, ?_, hfailed, ?_⟩
    · rw [conclude_of_outcome hf hv hnone hshown]
    · rw [conclude_of_outcome hf hv hnone hshown, hfailed, Bool.not_false, Bool.and_true]

/-- **No queued entry is lost or run twice.** Building calls on arbitrary members in any order
keep a family coherent, so that running it comes to an end. A finalizer whose run is not
interrupted then visits every member exactly once and leaves one record of each entry queued, or
fails because a block is still open. -/
theorem every_entry_runs_once {document : Document} {description : String} {limit : Int}
    {raising : Bool} {f g : Family} {k : Nat} {c : Call} (hv : document.problem = none)
    (hf : Reached Call.Builds (start document description limit raising) f)
    (hk : k < f.members.length) (hc : c.Finalizes) (hg : f.readied k c = .ok g) :
    f.Coherent ∧ g.Coherent ∧ (WellFounded fun c k => c ∈ g.children k) ∧
      (∀ j < g.members.length, ∀ ws, g.run j ws =
        let p := runQueue g.run g.branchesOf (g.queueOf j) ws
        { p with visits := p.visits ++ [⟨j, p.candidates, p.records⟩] }) ∧
      ((g.run 0 [document.root]).fault = none →
        (f.openBlocks = [] →
          ((g.run 0 [document.root]).visits.map Visit.member).Perm
              (List.range f.members.length) ∧
            ∀ j < f.members.length, ∃ m, (f.call k c).1.member? j = some m ∧
              m.queue = g.queueOf j ∧ m.records.length = m.queue.length ∧
              m.records.map Record.description = m.queue.map Entry.label) ∧
        (f.openBlocks ≠ [] →
          (∃ outcome, (f.call k c).1.reported = [outcome] ∧ outcome.passed = false ∧
              (f.call k c).2 =
                if raising then .error (.failedOutcome outcome) else .ok (.verdict false)) ∨
            ∃ fault, g.outcomeOf (g.run 0 [document.root]) = .error fault ∧
              (f.call k c).2 = .error fault)) := by
  have hstart := coherent_start document description limit raising
  have hcf := hf.coherent hstart
  have hcg := hcf.readied hk hg
  have hbuilt := (hf.built hstart).readied hg
  have hfin : g.finalized = false := hbuilt.finalized_eq
  have hdoc : g.document.problem = none := by rw [hbuilt.document_eq]; exact hv
  have hreported : g.reported = [] := hbuilt.reported_eq
  have hraising : g.raising = raising := hbuilt.raising_eq
  have hcandidates : g.startCandidates = [document.root] :=
    hbuilt.startCandidates_eq.trans (startCandidates_start hv ..)
  have hsame : g.openBlocks = f.openBlocks ∧ g.members.length = f.members.length := by
    rcases readied_eq hg with rfl | ⟨s, rfl⟩ <;> simp
  refine ⟨hcf, hcg, hcg.children_wellFounded, fun j hj ws => hcg.run_eq hj ws, fun hnone => ?_⟩
  rw [call_of_readied hc hg]
  rw [← hcandidates] at hnone ⊢
  constructor
  · intro ho
    obtain ⟨hperm, hmembers⟩ := hcg.complete (hsame.1.trans ho) hnone
    rw [hsame.2] at hperm hmembers
    refine ⟨hperm, fun j hj => ?_⟩
    obtain ⟨m, hm, hqueue, hlabels⟩ := hmembers j hj
    refine ⟨m, (conclude_member? hfin hdoc hnone j).trans hm, hqueue, ?_, hlabels⟩
    simpa using congrArg List.length hlabels
  · intro ho
    rcases conclude_of_open hfin hdoc (hsame.1 ▸ ho) hnone with ⟨o, hone, hfail, he⟩ | ⟨e, he, hr⟩
    · rw [hreported] at hone
      refine .inl ⟨o, hone, hfail, ?_⟩
      rw [he, hraising]
      split <;> rfl
    · exact .inr ⟨e, he, by rw [hr]; rfl⟩

/-- A block whose second alternative is begun on the origin and not on the first one, and a step
queued on an alternative after its block was closed. -/
theorem every_entry_runs_once_of_outer_calls :
    ∃ f g : Family, (Document.ofValue .null).problem = none ∧
      Reached Call.Builds (start (.ofValue .null) "" 80 false) f ∧ 1 < f.members.length ∧
      Call.Finalizes .verify ∧
      f.readied 1 .verify = .ok g ∧ f.openBlocks = [] ∧
      (g.run 0 [.null]).fault = none ∧
      ((g.run 0 [.null]).visits.map Visit.member).Perm (List.range 3) := by
  let f₁ := ((start (.ofValue .null) "" 80 false).call 0 .openBlock).1
  let f₂ := (f₁.call 0 .nextBranch).1
  let f₃ := (f₂.call 2 .closeBlock).1
  let f₄ := (f₃.call 1 (.queue (.isKind .object))).1
  have hf : Reached Call.Builds (start (.ofValue .null) "" 80 false) f₄ :=
    .call (.call (.call (.call .start (k := 0) (by decide) trivial) (k := 0) (by decide) trivial)
      (k := 2) (by decide) trivial) (k := 1) (by decide) trivial
  obtain ⟨g, hg⟩ : ∃ g, f₄.readied 1 .verify = .ok g := ⟨_, rfl⟩
  have hnone : (g.run 0 [.null]).fault = none := by
    cases hg
    rfl
  exact ⟨f₄, g, rfl, hf, by decide, trivial, hg, rfl, hnone,
    ((every_entry_runs_once (c := .verify) rfl hf (by decide) trivial hg).2.2.2.2 hnone).1 rfl |>.1⟩

end Family

end Attest

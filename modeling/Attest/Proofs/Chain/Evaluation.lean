import Mathlib.Data.List.Induction
import Attest.Proofs.Chain.Coherence
import Attest.Proofs.Value.Shown

/-!
# Evaluating coherent families

The evaluator carries a bound on the depth of nesting, which says nothing a user could see. In a
coherent family an alternative has a greater number than its owner, so the number of members is
bound enough: any larger one gives the same run, and `Family.run` obeys the equation that one
would write without a bound.

What a run leaves is described without reference to the evaluator: every record belongs to the
entry of the queue at its place, and a run that nothing interrupted has one for each entry.

## Main definitions

* `Family.run` — running a member of a family, with the bound chosen
* `Family.children` — the alternatives that the queue of a member runs
* `Entry.label` — the description that the record of an entry has

## Main results

* `Family.Linked.runMember_eq` — the bound does not matter
* `Family.Linked.run_eq` — the equation without a bound
* `Family.visit_labels`, `Family.Linked.visit_complete` — the records of a member that was visited
-/

namespace Attest

/-- The description that the record of an entry has. -/
def Entry.label : Entry → String
  | .step s => s.description
  | .block _ => "either"

namespace Family

def queueOf (f : Family) (k : ChainId) : List Entry := ((f.member? k).map Member.queue).getD []

/-- The alternatives that the queue of a member runs. -/
def children (f : Family) (k : ChainId) : List ChainId :=
  ((f.queueOf k).filterMap Entry.block?).flatMap f.branchesOf

/-- Running a member. No nesting is deeper than the number of members. -/
def run (f : Family) : Evaluator := runMember f f.members.length

theorem queueOf_of_some {f : Family} {k : ChainId} {m : Member} (h : f.member? k = some m) :
    f.queueOf k = m.queue := by
  simp [queueOf, h]

theorem mem_queueOf {f : Family} {k : ChainId} {entry : Entry} :
    entry ∈ f.queueOf k ↔ ∃ m, f.member? k = some m ∧ entry ∈ m.queue := by
  unfold queueOf
  cases f.member? k <;> simp

theorem mem_branchesOf {f : Family} {b : Nat} {c : ChainId} :
    c ∈ f.branchesOf b ↔ ∃ block, f.blocks[b]? = some block ∧ c ∈ block.branches := by
  unfold branchesOf
  cases f.blocks[b]? <;> simp

theorem mem_children {f : Family} {k c : ChainId} :
    c ∈ f.children k ↔ ∃ b, .block b ∈ f.queueOf k ∧ c ∈ f.branchesOf b := by
  simp only [children, List.mem_flatMap, List.mem_filterMap]
  constructor
  · rintro ⟨b, ⟨entry, hmem, he⟩, hc⟩
    cases entry with
    | step s => simp [Entry.block?] at he
    | block i =>
      simp only [Entry.block?, Option.some.injEq] at he
      exact ⟨b, he ▸ hmem, hc⟩
  · rintro ⟨b, hb, hc⟩
    exact ⟨b, ⟨_, hb, rfl⟩, hc⟩

/-- An alternative that a queue runs was forked from the member with that queue. -/
theorem Linked.forked_of_child {f : Family} (h : f.Linked) {k c : ChainId}
    (hc : c ∈ f.children k) :
    ∃ o m, f.member? k = some o ∧ f.member? c = some m ∧ m.parent = some k ∧
      m.depth = o.depth + 1 ∧ k < c := by
  obtain ⟨b, hb, hbranch⟩ := mem_children.mp hc
  obtain ⟨o, ho, hmem⟩ := mem_queueOf.mp hb
  obtain ⟨block, hblock, hown⟩ := h.queued ho hmem
  obtain ⟨block', hblock', hin⟩ := mem_branchesOf.mp hbranch
  obtain rfl : block = block' := Option.some.inj (hblock.symm.trans hblock')
  rw [← hown]
  exact h.forked hblock hin

theorem Linked.lt_of_child {f : Family} (h : f.Linked) {k c : Nat} (hc : c ∈ f.children k) :
    k < c ∧ c < f.members.length := by
  obtain ⟨_, m, _, hm, _, _, hlt⟩ := h.forked_of_child hc
  exact ⟨hlt, (List.getElem?_eq_some_iff.mp hm).1⟩

end Family

/-! ### The bound on nesting -/

variable {run run' : Evaluator} {branchesOf branchesOf' : Nat → List ChainId}

theorem runBranches_congr {candidates : List Value} :
    ∀ {ks : List ChainId}, (∀ c ∈ ks, run c = run' c) →
      runBranches run candidates ks = runBranches run' candidates ks
  | [], _ => rfl
  | k :: rest, h => by
    rw [runBranches, runBranches, h k List.mem_cons_self,
      runBranches_congr fun c hc => h c (List.mem_cons_of_mem _ hc)]

theorem runEntry_congr {candidates : List Value} {entry : Entry}
    (h : ∀ b, entry = .block b →
      branchesOf b = branchesOf' b ∧ ∀ c ∈ branchesOf b, run c = run' c) :
    runEntry run branchesOf candidates entry = runEntry run' branchesOf' candidates entry := by
  cases entry with
  | step s => rfl
  | block b =>
    obtain ⟨hbranches, hruns⟩ := h b rfl
    simp only [runEntry, runBlock, ← hbranches, runBranches_congr hruns]

/-- A queue is run alike if its blocks have the same alternatives, and those are run alike. -/
theorem runQueue_congr : ∀ {queue : List Entry} {candidates : List Value},
    (∀ b, .block b ∈ queue → branchesOf b = branchesOf' b ∧ ∀ c ∈ branchesOf b, run c = run' c) →
      runQueue run branchesOf queue candidates = runQueue run' branchesOf' queue candidates
  | [], _, _ => rfl
  | entry :: rest, candidates, h => by
    have hentry : runEntry run branchesOf candidates entry
        = runEntry run' branchesOf' candidates entry :=
      runEntry_congr fun b hb => h b (hb ▸ List.mem_cons_self)
    have hrest : ∀ vs, runQueue run branchesOf rest vs = runQueue run' branchesOf' rest vs :=
      fun vs => runQueue_congr fun b hb => h b (List.mem_cons_of_mem _ hb)
    simp only [runQueue, hentry, hrest]

namespace Family

/-- **A run reads the queues and blocks that it comes to, and nothing else.** Members that are run
alike are closed under running alternatives. -/
theorem runMember_frame {f g : Family} (region : ChainId → Prop)
    (hqueue : ∀ k, region k → f.queueOf k = g.queueOf k)
    (hblock : ∀ k b, region k → .block b ∈ f.queueOf k →
      f.branchesOf b = g.branchesOf b ∧ ∀ c ∈ f.branchesOf b, region c) :
    ∀ {d : Nat} {k : ChainId}, region k → runMember f d k = runMember g d k
  | 0, _, _ => rfl
  | d + 1, k, hk => by
    funext candidates
    have hrun : runQueue (runMember f d) f.branchesOf (f.queueOf k) candidates
        = runQueue (runMember g d) g.branchesOf (g.queueOf k) candidates := by
      rw [← hqueue k hk]
      refine runQueue_congr fun b hb => ?_
      obtain ⟨hbranches, hregion⟩ := hblock k b hk hb
      exact ⟨hbranches, fun c hc => runMember_frame region hqueue hblock (hregion c hc)⟩
    simp only [queueOf] at hrun
    simp only [runMember, hrun]

/-- **Once the bound exceeds what is left of the members, it does not matter.** -/
theorem Linked.runMember_eq {f : Family} (h : f.Linked) : ∀ {d d' k : Nat},
    f.members.length < d + k + 1 → f.members.length < d' + k + 1 → k < f.members.length →
      runMember f d k = runMember f d' k := by
  intro d
  induction d with
  | zero => intro d' k hd _ hk; omega
  | succ d ih =>
    intro d' k hd hd' hk
    obtain ⟨d', rfl⟩ : ∃ e, d' = e + 1 := ⟨d' - 1, by omega⟩
    funext candidates
    have hqueue : ∀ vs, runQueue (runMember f d) f.branchesOf (f.queueOf k) vs
        = runQueue (runMember f d') f.branchesOf (f.queueOf k) vs := by
      refine fun vs => runQueue_congr fun b hb => ⟨rfl, fun c hc => ?_⟩
      obtain ⟨hlt, hc⟩ := h.lt_of_child (mem_children.mpr ⟨b, hb, hc⟩)
      exact ih (by omega) (by omega) hc
    simp only [queueOf] at hqueue
    simp only [runMember, hqueue]

/-- **The equation of a run, in which no bound occurs.** -/
theorem Linked.run_eq {f : Family} (h : f.Linked) {k : Nat} (hk : k < f.members.length)
    (candidates : List Value) :
    f.run k candidates =
      let p := runQueue f.run f.branchesOf (f.queueOf k) candidates
      { p with visits := p.visits ++ [⟨k, p.candidates, p.records⟩] } := by
  obtain ⟨n, hn⟩ : ∃ n, f.members.length = n + 1 := ⟨f.members.length - 1, by omega⟩
  have hqueue : runQueue (runMember f n) f.branchesOf (f.queueOf k) candidates
      = runQueue f.run f.branchesOf (f.queueOf k) candidates := by
    refine runQueue_congr fun b hb => ⟨rfl, fun c hc => ?_⟩
    obtain ⟨hlt, hc⟩ := h.lt_of_child (mem_children.mpr ⟨b, hb, hc⟩)
    exact h.runMember_eq (by omega) (by omega) hc
  rw [← hqueue, run, hn]
  rfl

end Family

/-! ### What a run leaves -/

theorem runEntry_block (candidates : List Value) (b : Nat) :
    runEntry run branchesOf candidates (.block b)
      = ((runBlock run candidates (branchesOf b)).1.map fun r =>
          (r.1, .mk "either" r.1.passed r.1.message r.2),
        (runBlock run candidates (branchesOf b)).2) := rfl

/-- The record of an entry has its description. -/
theorem description_of_runEntry {candidates : List Value} {entry : Entry} {ran : Ran}
    {record : Record} {visits : List Visit}
    (h : runEntry run branchesOf candidates entry = (.ok (ran, record), visits)) :
    record.description = entry.label := by
  cases entry with
  | step s =>
    simp only [runEntry, Prod.mk.injEq] at h
    obtain ⟨_, _, he⟩ := map_eq_ok h.1
    rw [← (Prod.mk.inj he).2]
    rfl
  | block b =>
    simp only [runEntry_block, Prod.mk.injEq] at h
    obtain ⟨_, _, he⟩ := map_eq_ok h.1
    rw [← (Prod.mk.inj he).2]
    rfl

/-- The records that a run leaves belong to entries of the queue, in order. -/
theorem labels_runQueue_prefix : ∀ (queue : List Entry) (candidates : List Value),
    (runQueue run branchesOf queue candidates).records.map Record.description
      <+: queue.map Entry.label
  | [], _ => List.prefix_rfl
  | entry :: rest, candidates => by
    rw [runQueue]
    split
    · exact List.nil_prefix
    · next ran record _ he =>
      simp only [List.map_cons, description_of_runEntry he]
      exact List.cons_prefix_cons.mpr ⟨rfl, labels_runQueue_prefix rest ran.candidates⟩

/-- A run that nothing interrupted leaves a record of every entry. -/
theorem labels_runQueue_of_none : ∀ {queue : List Entry} {candidates : List Value},
    (runQueue run branchesOf queue candidates).fault = none →
      (runQueue run branchesOf queue candidates).records.map Record.description
        = queue.map Entry.label
  | [], _, _ => rfl
  | entry :: rest, candidates, h => by
    rw [runQueue] at h ⊢
    split at h
    · cases h
    · next ran record _ he =>
      simp only [List.map_cons, description_of_runEntry he]
      exact congrArg _ (labels_runQueue_of_none h)

/-! ### Which members a run visits -/

/-- A visit below alternatives happened in the run of one of them. -/
theorem visit_of_runBranches {candidates : List Value} {v : Visit} : ∀ {ks : List ChainId},
    v ∈ (runBranches run candidates ks).visits →
      ∃ c ∈ ks, v ∈ (run c candidates).visits ∧
        ((runBranches run candidates ks).fault = none → (run c candidates).fault = none)
  | [], h => by simp [runBranches] at h
  | k :: rest, h => by
    rw [runBranches] at h ⊢
    split at h
    · next fault hf =>
      exact ⟨k, List.mem_cons_self, h, fun hn => by simp at hn⟩
    · next hf =>
      rcases List.mem_append.mp h with hv | hv
      · exact ⟨k, List.mem_cons_self, hv, fun _ => hf⟩
      · obtain ⟨c, hc, hvc, hnone⟩ := visit_of_runBranches hv
        refine ⟨c, List.mem_cons_of_mem _ hc, hvc, fun hn => hnone ?_⟩
        simpa [hf] using hn

/-- The visits of a block are those of its alternatives, and a block that was not interrupted had
no alternative that was. -/
theorem runBlock_visits (run : Evaluator) (candidates : List Value) (ks : List ChainId) :
    (runBlock run candidates ks).2 = (runBranches run candidates ks).visits ∧
      (∀ ran, (runBlock run candidates ks).1 = .ok ran →
        (runBranches run candidates ks).fault = none) := by
  simp only [runBlock]
  cases hf : (runBranches run candidates ks).fault with
  | some fault => exact ⟨rfl, fun _ h => by cases h⟩
  | none =>
    refine ⟨?_, fun _ _ => rfl⟩
    dsimp only
    split
    · rfl
    · split <;> rfl

/-- A visit below an entry happened in the run of an alternative, from the same candidates. -/
theorem visit_of_runEntry {v : Visit} {candidates : List Value} {entry : Entry}
    {result : Except Fault (Ran × Record)} {visits : List Visit}
    (he : runEntry run branchesOf candidates entry = (result, visits)) (hv : v ∈ visits) :
    ∃ b c, entry = .block b ∧ c ∈ branchesOf b ∧ v ∈ (run c candidates).visits ∧
      (∀ r, result = .ok r → (run c candidates).fault = none) := by
  cases entry with
  | step s =>
    simp only [runEntry, Prod.mk.injEq] at he
    simp [← he.2] at hv
  | block b =>
    obtain ⟨hvisits, hnone⟩ := runBlock_visits run candidates (branchesOf b)
    simp only [runEntry_block, Prod.mk.injEq] at he
    rw [← he.2, hvisits] at hv
    obtain ⟨c, hc, hvc, hbelow⟩ := visit_of_runBranches hv
    refine ⟨b, c, rfl, hc, hvc, fun r hr => hbelow ?_⟩
    obtain ⟨ran, hran, _⟩ := map_eq_ok (he.1.trans hr)
    exact hnone ran hran

/-- A visit below a queue happened in the run of an alternative of one of its blocks. -/
theorem visit_of_runQueue {v : Visit} : ∀ {queue : List Entry} {candidates : List Value},
    v ∈ (runQueue run branchesOf queue candidates).visits →
      ∃ b c ws, .block b ∈ queue ∧ c ∈ branchesOf b ∧ v ∈ (run c ws).visits ∧
        ((runQueue run branchesOf queue candidates).fault = none → (run c ws).fault = none)
  | [], _, h => by simp [runQueue] at h
  | entry :: rest, candidates, h => by
    rw [runQueue] at h ⊢
    split at h
    · next fault visits he =>
      obtain ⟨b, c, rfl, hc, hvc, _⟩ := visit_of_runEntry he h
      exact ⟨b, c, candidates, List.mem_cons_self, hc, hvc, fun hn => by simp at hn⟩
    · next ran record visits he =>
      rcases List.mem_append.mp h with hv | hv
      · obtain ⟨b, c, rfl, hc, hvc, hok⟩ := visit_of_runEntry he hv
        exact ⟨b, c, candidates, List.mem_cons_self, hc, hvc, fun _ => hok _ rfl⟩
      · obtain ⟨b, c, ws, hb, hc, hvc, hnone⟩ := visit_of_runQueue hv
        exact ⟨b, c, ws, List.mem_cons_of_mem _ hb, hc, hvc,
          fun hn => hnone (by simpa [he] using hn)⟩

namespace Family

/-- **What a visit left belongs to the queue of the member visited,** whatever the bound. -/
theorem visit_labels {f : Family} {v : Visit} : ∀ {d k : Nat} {candidates : List Value},
    v ∈ (runMember f d k candidates).visits →
      v.records.map Record.description <+: (f.queueOf v.member).map Entry.label
  | 0, k, candidates, h => by
    rw [List.mem_singleton.mp h]
    exact List.nil_prefix
  | d + 1, k, candidates, h => by
    rcases List.mem_append.mp h with hv | hv
    · obtain ⟨_, c, ws, _, _, hvc, _⟩ := visit_of_runQueue hv
      exact visit_labels hvc
    · rw [List.mem_singleton.mp hv]
      exact labels_runQueue_prefix _ candidates

/-- **In a run that nothing interrupted, every member visited has a record of each entry of its
queue.** -/
theorem Linked.visit_complete {f : Family} (h : f.Linked) {v : Visit} {k : Nat}
    {candidates : List Value} (hk : k < f.members.length)
    (hnone : (f.run k candidates).fault = none) (hv : v ∈ (f.run k candidates).visits) :
    v.records.map Record.description = (f.queueOf v.member).map Entry.label := by
  induction hn : f.members.length - k using Nat.strongRecOn generalizing k candidates with
  | ind n ih =>
    rw [h.run_eq hk] at hv hnone
    rcases List.mem_append.mp hv with hv | hv
    · obtain ⟨b, c, ws, hb, hc, hvc, hbelow⟩ := visit_of_runQueue hv
      obtain ⟨hlt, hc⟩ := h.lt_of_child (mem_children.mpr ⟨b, hb, hc⟩)
      exact ih _ (by omega) hc (hbelow hnone) hvc rfl
    · rw [List.mem_singleton.mp hv]
      exact labels_runQueue_of_none hnone

/-! ### Storing what a run left -/

theorem recordVisits_append (f : Family) (vs ws : List Visit) :
    f.recordVisits (vs ++ ws) = (f.recordVisits vs).recordVisits ws := by
  simp [recordVisits]

@[simp] theorem length_members_recordVisits (f : Family) (vs : List Visit) :
    (f.recordVisits vs).members.length = f.members.length := by
  induction vs generalizing f with
  | nil => rfl
  | cons v vs ih => exact (ih _).trans (List.length_modify ..)

/-- A member after what a run left was stored: it is what it was, but for what the last visit of
it left. -/
theorem member_of_recordVisits {f : Family} {vs : List Visit} {j : ChainId} {m : Member}
    (h : (f.recordVisits vs).member? j = some m) :
    ∃ old, f.member? j = some old ∧ m.queue = old.queue ∧ m.parent = old.parent ∧
      m.depth = old.depth ∧
      (((∀ v ∈ vs, v.member ≠ j) ∧ m = old) ∨
        ∃ v ∈ vs, v.member = j ∧ m.records = v.records ∧ m.candidates = v.candidates) := by
  induction vs using List.reverseRecOn generalizing m with
  | nil => exact ⟨m, h, rfl, rfl, rfl, .inl ⟨by simp, rfl⟩⟩
  | append_singleton vs v ih =>
    rw [recordVisits_append] at h
    simp only [recordVisits, List.foldl_cons, List.foldl_nil, modifyMember, member?,
      List.getElem?_modify] at h
    obtain ⟨mid, hmid, rfl⟩ := Option.map_eq_some_iff.mp h
    obtain ⟨old, hold, hq, hp, hd, hlast⟩ := ih hmid
    by_cases hv : v.member = j
    · simp only [hv, if_true]
      exact ⟨old, hold, hq, hp, hd, .inr ⟨v, by simp, hv, rfl, rfl⟩⟩
    · simp only [hv, if_false]
      refine ⟨old, hold, hq, hp, hd, ?_⟩
      rcases hlast with ⟨hne, he⟩ | ⟨w, hw, hwj, hrest⟩
      · refine .inl ⟨fun w hw => ?_, he⟩
        rcases List.mem_append.mp hw with hw | hw
        · exact hne w hw
        · rw [List.mem_singleton.mp hw]
          exact hv
      · exact .inr ⟨w, List.mem_append_left _ hw, hwj, hrest⟩

end Family

end Attest

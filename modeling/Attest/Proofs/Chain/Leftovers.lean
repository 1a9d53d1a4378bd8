import Attest.Proofs.Chain.Settlement

/-!
# What runs leave is not read

A run stores candidates and records in the members that it visits, and they stay there. No later
run looks at them: it begins with the candidates that it is given, and otherwise reads queues and
blocks. So families that differ only in what runs left are run alike, and whatever was proved of
families from their queues and blocks holds after any call, finalizers included.

## Main definitions

* `Member.plan` — a member without what runs leave in it
* `Family.SamePlan` — families that differ only in what runs leave and report

## Main results

* `Family.SamePlan.run_eq` — they are run alike
* `Family.Reached.coherent_of_any` — calls of any sort keep a family coherent
* `Family.SamePlan.member?_recordVisits` — what a run leaves does not depend on what was there
* `Family.member?_recordVisits_of_nodup` — what is stored of a member that is visited once
-/

namespace Attest

/-- A member without what runs leave in it. -/
def Member.plan (m : Member) : Member := { m with candidates := [], records := [] }

/-- A member after a visit of it. -/
def Visit.store (v : Visit) (m : Member) : Member :=
  { m with candidates := v.candidates, records := v.records }

namespace Family

/-- Families that differ only in what runs leave in members, and in what was reported. -/
structure SamePlan (f g : Family) : Prop where
  members : f.members.map Member.plan = g.members.map Member.plan
  blocks : f.blocks = g.blocks
  openBlocks : f.openBlocks = g.openBlocks

variable {f g : Family} {k : ChainId}

theorem SamePlan.refl (f : Family) : f.SamePlan f := ⟨rfl, rfl, rfl⟩

theorem SamePlan.symm (h : f.SamePlan g) : g.SamePlan f :=
  ⟨h.members.symm, h.blocks.symm, h.openBlocks.symm⟩

theorem SamePlan.trans {h : Family} (hfg : f.SamePlan g) (hgh : g.SamePlan h) : f.SamePlan h :=
  ⟨hfg.members.trans hgh.members, hfg.blocks.trans hgh.blocks, hfg.openBlocks.trans hgh.openBlocks⟩

section

variable (h : f.SamePlan g)

include h

theorem SamePlan.length_members : f.members.length = g.members.length := by
  simpa using congrArg List.length h.members

theorem SamePlan.member? (k : ChainId) :
    (f.member? k).map Member.plan = (g.member? k).map Member.plan := by
  simpa only [Family.member?, List.getElem?_map] using congrArg (·[k]?) h.members

theorem SamePlan.member_of_some {m : Member} (hm : f.member? k = some m) :
    ∃ n, g.member? k = some n ∧ n.parent = m.parent ∧ n.depth = m.depth ∧ n.queue = m.queue := by
  have hplan := h.member? k
  rw [hm] at hplan
  obtain ⟨n, hn, hplan⟩ := Option.map_eq_some_iff.mp hplan.symm
  simp only [Member.plan, Member.mk.injEq] at hplan
  exact ⟨n, hn, hplan.1, hplan.2.1, hplan.2.2.2.1⟩

theorem SamePlan.queueOf_eq (k : ChainId) : f.queueOf k = g.queueOf k := by
  have hplan := congrArg (fun m? => (m?.map Member.queue).getD []) (h.member? k)
  simp only [Option.map_map] at hplan
  exact hplan

theorem SamePlan.branchesOf_eq : f.branchesOf = g.branchesOf := by
  funext b
  rw [branchesOf, branchesOf, h.blocks]

/-- **What runs left has no influence on a run.** -/
theorem SamePlan.run_eq : f.run = g.run := by
  funext k
  rw [run, run, ← h.length_members]
  exact runMember_frame (fun _ => True) (fun k _ => h.queueOf_eq k)
    (fun _ b _ _ => ⟨congrFun h.branchesOf_eq b, fun _ _ => trivial⟩) trivial

theorem SamePlan.closedBlocks_eq : f.closedBlocks = g.closedBlocks := by
  have hplan := congrArg (List.flatMap Member.blocks) h.members
  simp only [List.flatMap_map] at hplan
  exact hplan

/-- Coherence is a matter of queues and blocks. -/
theorem SamePlan.coherent (hf : f.Coherent) : g.Coherent where
  origin := by
    obtain ⟨m, hm, hparent⟩ := hf.origin
    obtain ⟨n, hn, hsame, -⟩ := h.member_of_some hm
    exact ⟨n, hn, hsame.trans hparent⟩
  branches := by
    rw [← h.blocks, ← h.length_members]
    exact hf.branches
  queued := by
    intro k n b hn hb
    obtain ⟨m, hm, -, -, hqueue⟩ := h.symm.member_of_some hn
    rw [← h.blocks]
    exact hf.queued hm (hqueue ▸ hb)
  forked := by
    intro b block c hb hc
    rw [← h.blocks] at hb
    obtain ⟨o, m, ho, hm, hparent, hdepth, hlt⟩ := hf.forked hb hc
    obtain ⟨o', ho', -, howner, -⟩ := h.member_of_some ho
    obtain ⟨m', hm', hsame, hbranch, -⟩ := h.member_of_some hm
    exact ⟨o', m', ho', hm', hsame.trans hparent, by rw [hbranch, howner, hdepth], hlt⟩
  owners := by
    intro b block hb
    rw [← h.length_members]
    rw [← h.blocks] at hb
    exact hf.owners hb
  placed := by
    rw [← h.openBlocks, ← h.blocks, ← h.closedBlocks_eq]
    exact hf.placed

end

/-! ### Storing what a run left -/

theorem member?_modifyMember (f : Family) (k j : ChainId) (change : Member → Member) :
    (f.modifyMember k change).member? j
      = (f.member? j).map fun m => if k = j then change m else m :=
  List.getElem?_modify ..

theorem recordVisits_cons (f : Family) (v : Visit) (vs : List Visit) :
    f.recordVisits (v :: vs) = (f.modifyMember v.member v.store).recordVisits vs := rfl

theorem samePlan_modifyMember {change : Member → Member} (hchange : ∀ m, (change m).plan = m.plan)
    (f : Family) (k : ChainId) : f.SamePlan (f.modifyMember k change) where
  members := by
    refine List.ext_getElem? fun j => ?_
    have hmember := member?_modifyMember f k j change
    simp only [member?] at hmember
    rw [List.getElem?_map, List.getElem?_map, hmember, Option.map_map]
    congr 1
    funext m
    dsimp only [Function.comp]
    split
    · exact (hchange m).symm
    · rfl
  blocks := rfl
  openBlocks := rfl

/-- **Storing what a run left changes no plan.** -/
theorem samePlan_recordVisits (f : Family) (vs : List Visit) : f.SamePlan (f.recordVisits vs) := by
  induction vs generalizing f with
  | nil => exact .refl f
  | cons v vs ih =>
    rw [recordVisits_cons]
    have hstore : ∀ m, (v.store m).plan = m.plan := fun _ => rfl
    exact (samePlan_modifyMember hstore f v.member).trans (ih _)

/-- What is stored of members that are not visited. -/
theorem member?_recordVisits_of_notMem {vs : List Visit} {j : ChainId}
    (hj : j ∉ vs.map Visit.member) : (f.recordVisits vs).member? j = f.member? j := by
  induction vs generalizing f with
  | nil => rfl
  | cons v vs ih =>
    obtain ⟨hv, hvs⟩ := not_or.mp (mt List.mem_cons.mpr hj)
    rw [recordVisits_cons, ih hvs, member?_modifyMember]
    simp [Ne.symm hv]

/-- **What is stored of a member that is visited once** is what that visit left. -/
theorem member?_recordVisits_of_nodup {vs : List Visit} (hvs : (vs.map Visit.member).Nodup)
    {v : Visit} (hv : v ∈ vs) :
    (f.recordVisits vs).member? v.member = (f.member? v.member).map v.store := by
  induction vs generalizing f with
  | nil => cases hv
  | cons w vs ih =>
    obtain ⟨hw, hvs⟩ := List.nodup_cons.mp hvs
    rw [recordVisits_cons]
    rcases List.mem_cons.mp hv with rfl | hv
    · rw [member?_recordVisits_of_notMem hw, member?_modifyMember]
      simp
    · have hne : w.member ≠ v.member := fun he => hw (he ▸ List.mem_map_of_mem hv)
      rw [ih hvs hv, member?_modifyMember]
      simp [hne]

/-- **What a run leaves in a member does not depend on what was there.** -/
theorem SamePlan.member?_recordVisits {vs : List Visit} {j : ChainId} (h : f.SamePlan g)
    (hj : j ∈ vs.map Visit.member) :
    (f.recordVisits vs).member? j = (g.recordVisits vs).member? j := by
  induction vs generalizing f g with
  | nil => cases hj
  | cons v vs ih =>
    have hstore : ∀ m, (v.store m).plan = m.plan := fun _ => rfl
    rw [recordVisits_cons, recordVisits_cons]
    by_cases hvs : j ∈ vs.map Visit.member
    · exact ih ((samePlan_modifyMember hstore f v.member).symm.trans
        (h.trans (samePlan_modifyMember hstore g v.member))) hvs
    · obtain rfl : j = v.member := (List.mem_cons.mp hj).resolve_right hvs
      have hplan := congrArg (Option.map v.store) (h.member? v.member)
      rw [Option.map_map, Option.map_map] at hplan
      rw [member?_recordVisits_of_notMem hvs, member?_recordVisits_of_notMem hvs,
        member?_modifyMember, member?_modifyMember]
      simp only [if_true]
      exact hplan

/-! ### Calls of any sort -/

theorem samePlan_ran (f : Family) (p : Progress) : f.SamePlan (f.ran p) := by
  have hfinalized : f.SamePlan { f with finalized := true } := ⟨rfl, rfl, rfl⟩
  exact hfinalized.trans (samePlan_recordVisits _ p.visits)

theorem samePlan_conclude (f : Family) : f.SamePlan f.conclude.1 := by
  obtain ⟨g, hg, hshared⟩ := conclude_shared f
  have hsame : f.SamePlan g := by
    rcases hg with rfl | rfl
    · exact .refl _
    · exact samePlan_ran f _
  rw [hshared]
  exact ⟨hsame.members, hsame.blocks, hsame.openBlocks⟩

theorem samePlan_close (f : Family) : f.SamePlan f.close.1 := by
  unfold close
  split
  · exact .refl f
  · exact ⟨rfl, rfl, rfl⟩

/-- **A call of any sort keeps a family coherent.** -/
theorem Coherent.call_of_any (h : f.Coherent) (hk : k < f.members.length) (c : Call) :
    (f.call k c).1.Coherent := by
  by_cases hs : c.Settles
  · rcases call_of_settles hs f k with ⟨-, hcall⟩ | ⟨r, hr, hcall⟩
    · rw [hcall]
      exact (samePlan_close f).coherent h
    · rw [hcall]
      exact (samePlan_conclude r).coherent (h.readied hk hr)
  · rcases call_of_not_settles hs f k with hb | hcall
    · exact h.call hk hb
    · rw [hcall]
      exact h

/-- **So do any number of them.** -/
theorem Reached.coherent_of_any {sort : Call → Prop} (hf : f.Coherent) (h : Reached sort f g) :
    g.Coherent := by
  induction h with
  | start => exact hf
  | call _ hk _ ih => exact ih.call_of_any hk _

end Family

end Attest

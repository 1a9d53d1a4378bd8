import Mathlib.Data.List.Flatten
import Attest.Proofs.Chain.Candidates
import Attest.Proofs.Chain.Exhaustive
import Attest.Proofs.Chain.Leftovers
import Attest.Proofs.Chain.Union

/-!
# Alternatives are isolated

A block hands the candidates that it came to to each of its alternatives, and none of them sees
what another one made of them. What is less plain is that their results stay apart as well, for
they are stored in members, and one alternative could overwrite what another one left. It does not,
because no run visits a member twice, however blocks are nested.

So a block comes to what its alternatives come to each on its own, and their order can matter only
where it joins what they found. There it decides which of several equal values is met first, and
hence kept, but not how many are.

Another order of the alternatives of a block is a change of that block; they keep their numbers. It
is not made by any call, so what is proved for it is proved of coherent families.

## Main definitions

* `Value.Proper` — values that can be compared throughout
* `survivors` — the candidates of the alternatives that pass
* `Family.EachAlone` — a block comes to what its alternatives come to each on its own
* `Family.reorder` — the alternatives of a block in another order

## Main results

* `Family.Coherent.block_nodup` — the alternatives of a block visit different members
* `Family.Coherent.each_alone` — a block that nothing interrupts comes to what they come to alone
* `Family.Linked.run_reorder` — each of them is run alike in any order
* `Family.alternatives_isolated` — what follows for a block in two orders
-/

namespace Attest

/-! ### Values that can be compared throughout -/

namespace Value

/-- A value of which every part can be compared with candidates. -/
def Proper (v : Value) : Prop := ∀ w, v.Part w → w.Comparable

theorem hereditary_proper : Hereditary Proper where
  item h hv _ hw := h _ ((hereditary_part _).part hw ((hereditary_part _).item .root hv))
  entry h he _ hw := h _ ((hereditary_part _).part hw ((hereditary_part _).entry .root he))

theorem WellFormed.comparable {v : Value} (h : v.WellFormed) : v.Comparable := by
  cases v with
  | float => exact fun _ => h
  | null | bool | int | str | array | object => exact trivial
  | _ => exact h.elim

theorem WellFormed.ne_nan {v : Value} (h : v.WellFormed) : v ≠ .float .nan := by
  rintro rfl
  exact h

/-- Well-formed values can be compared throughout. -/
theorem WellFormed.proper {v : Value} (h : v.WellFormed) : v.Proper :=
  fun _ hw => (hereditary_wellFormed.part hw h).comparable

end Value

/-! ### Blocks that nothing interrupts -/

/-- What is left of an alternative in the record of its block. -/
def Progress.branch (p : Progress) : Branch := .mk p.passed p.records

/-- The candidates of the alternatives that pass, one list for each. -/
def survivors (run : Evaluator) (vs : List Value) (ks : List ChainId) : List (List Value) :=
  (ks.filter fun c => (run c vs).passed).map fun c => (run c vs).candidates

section

variable {run : Evaluator} {vs : List Value} {ks ks' : List ChainId}

theorem runBranches_of_none : ∀ {ks : List ChainId}, (∀ c ∈ ks, (run c vs).fault = none) →
    runBranches run vs ks = {
      branches := ks.map fun c => (run c vs).branch
      survivors := survivors run vs ks
      fault := none
      visits := ks.flatMap fun c => (run c vs).visits }
  | [], _ => rfl
  | k :: rest, h => by
    obtain ⟨hk, hrest⟩ := List.forall_mem_cons.mp h
    simp only [runBranches, hk, runBranches_of_none hrest, survivors, List.filter_cons]
    cases hp : (run k vs).passed <;> simp [Progress.branch, hp]

/-- The result of a block: it passes if an alternative does, and then goes on with the union. -/
theorem runBlock_of_none (hnone : ∀ c ∈ ks, (run c vs).fault = none)
    (hcomparable : ∀ v ∈ (survivors run vs ks).flatten, v.Comparable) :
    ∃ message, runBlock run vs ks
      = (.ok (⟨ks.any fun c => (run c vs).passed, message,
            if ks.any fun c => (run c vs).passed then firstOccurrences (survivors run vs ks).flatten
            else vs⟩,
          ks.map fun c => (run c vs).branch),
        ks.flatMap fun c => (run c vs).visits) := by
  have hpassed : (survivors run vs ks).isEmpty = !ks.any fun c => (run c vs).passed := by
    rw [Bool.eq_iff_iff, survivors, List.isEmpty_iff, List.map_eq_nil_iff, List.filter_eq_nil_iff]
    simp
  simp only [runBlock, runBranches_of_none hnone, hpassed, unite_eq hcomparable]
  cases ks.any fun c => (run c vs).passed with
  | true => exact ⟨_, rfl⟩
  | false => exact ⟨_, rfl⟩

/-- What holds of the candidates of every alternative holds of those of the survivors. -/
theorem forall_mem_survivors {P : Value → Prop}
    (h : ∀ c ∈ ks, ∀ v ∈ (run c vs).candidates, P v) :
    ∀ v ∈ (survivors run vs ks).flatten, P v := by
  intro v hv
  obtain ⟨group, hgroup, hv⟩ := List.mem_flatten.mp hv
  obtain ⟨c, hc, rfl⟩ := List.mem_map.mp hgroup
  exact h c (List.mem_of_mem_filter hc) v hv

theorem survivors_congr {run' : Evaluator} (h : ∀ c ∈ ks, run c vs = run' c vs) :
    survivors run vs ks = survivors run' vs ks := by
  have hpassed : ∀ c ∈ ks, (run c vs).passed = (run' c vs).passed := fun c hc => by rw [h c hc]
  rw [survivors, survivors, List.filter_congr hpassed]
  refine List.map_congr_left fun c hc => ?_
  rw [h c (List.mem_of_mem_filter hc)]

theorem survivors_perm (h : ks.Perm ks') : (survivors run vs ks).Perm (survivors run vs ks') :=
  (h.filter _).map _

end

namespace Family

variable {f : Family} {k c : ChainId} {b : Nat} {vs : List Value} {ks : List ChainId}

/-! ### The alternatives of a block -/

/-- What a block comes to if each of its alternatives is run as if it were alone. -/
structure EachAlone (f : Family) (b : Nat) (vs : List Value) (ran : Ran) (record : Record)
    (visits : List Visit) : Prop where
  /-- The record of the block has the results of every alternative. -/
  branches : record.branches = (f.branchesOf b).map fun c => (f.run c vs).branch
  /-- Every alternative keeps its own results and candidates. -/
  own : ∀ c ∈ f.branchesOf b, (f.recordVisits visits).member? c = (f.member? c).map fun m =>
    { m with candidates := (f.run c vs).candidates, records := (f.run c vs).records }
  /-- So do the members below it. -/
  below : ∀ c ∈ f.branchesOf b, ∀ v ∈ (f.run c vs).visits,
    (f.recordVisits visits).member? v.member
      = (f.recordVisits (f.run c vs).visits).member? v.member
  passed : ran.passed = (f.branchesOf b).any fun c => (f.run c vs).passed
  /-- What the block goes on with. -/
  candidates : ran.candidates =
    if ran.passed then firstOccurrences (survivors f.run vs (f.branchesOf b)).flatten else vs

theorem lt_of_mem_queueOf {entry : Entry} (h : entry ∈ f.queueOf k) : k < f.members.length := by
  obtain ⟨m, hm, _⟩ := mem_queueOf.mp h
  exact (List.getElem?_eq_some_iff.mp hm).1

/-- The last visit of a run is that of the member it began with. -/
theorem Linked.own_visit (h : f.Linked) (hc : c < f.members.length) (vs : List Value) :
    ⟨c, (f.run c vs).candidates, (f.run c vs).records⟩ ∈ (f.run c vs).visits := by
  rw [h.run_eq hc]
  exact List.mem_append_right _ (List.mem_singleton_self _)

/-- **The alternatives of a block visit different members.** -/
theorem Coherent.block_nodup (h : f.Coherent) (hb : .block b ∈ f.queueOf k) :
    ((f.branchesOf b).flatMap (f.descent f.members.length)).Nodup := by
  have hk := lt_of_mem_queueOf hb
  have hqueued : f.branchesOf b ∈ ((f.queueOf k).filterMap Entry.block?).map f.branchesOf :=
    List.mem_map_of_mem (List.mem_filterMap.mpr ⟨_, hb, rfl⟩)
  have hchildren : (f.branchesOf b).Sublist (f.children k) := List.sublist_flatten_of_mem hqueued
  have hnodup := h.descent_nodup (d := f.members.length + 1) (k := k) (by omega) hk
  exact ((hchildren.flatMap _).trans (List.sublist_append_left ..)).nodup hnodup

/-- **Alternatives are isolated:** a block that nothing interrupts comes to what its alternatives
come to each on its own. -/
theorem Coherent.each_alone (h : f.Coherent) (hb : .block b ∈ f.queueOf k)
    (hnone : ∀ c ∈ f.branchesOf b, (f.run c vs).fault = none)
    (hcomparable : ∀ c ∈ f.branchesOf b, ∀ v ∈ (f.run c vs).candidates, v.Comparable) :
    ∃ ran record visits, runEntry f.run f.branchesOf vs (.block b) = (.ok (ran, record), visits) ∧
      f.EachAlone b vs ran record visits := by
  obtain ⟨message, hblock⟩ := runBlock_of_none hnone (forall_mem_survivors hcomparable)
  have hlt : ∀ c ∈ f.branchesOf b, c < f.members.length := fun c hc =>
    (h.lt_of_child (mem_children.mpr ⟨b, hb, hc⟩)).2
  have hvisits : ((f.branchesOf b).flatMap fun c => (f.run c vs).visits).map Visit.member
      = (f.branchesOf b).flatMap (f.descent f.members.length) := by
    rw [List.map_flatMap]
    exact List.flatMap_congr fun c hc => visited_of_none (hnone c hc)
  have hnodup := hvisits ▸ h.block_nodup hb
  have hmem : ∀ c ∈ f.branchesOf b, ∀ v ∈ (f.run c vs).visits,
      v ∈ (f.branchesOf b).flatMap fun c => (f.run c vs).visits := fun c hc v hv =>
    List.mem_flatMap.mpr ⟨c, hc, hv⟩
  refine ⟨_, _, _, by rw [runEntry_block, hblock]; rfl, rfl, fun c hc => ?_, fun c hc v hv => ?_,
    rfl, rfl⟩
  · exact member?_recordVisits_of_nodup hnodup (hmem c hc _ (h.own_visit (hlt c hc) vs))
  · have halone : ((f.run c vs).visits.map Visit.member).Nodup := by
      rw [run, visited_of_none (hnone c hc)]
      exact h.descent_nodup (by omega) (hlt c hc)
    rw [member?_recordVisits_of_nodup hnodup (hmem c hc v hv),
      member?_recordVisits_of_nodup halone hv]

/-! ### Another order -/

/-- The family with the alternatives of a block in another order. -/
def reorder (f : Family) (b : Nat) (ks : List ChainId) : Family :=
  { f with blocks := f.blocks.modify b fun block => { block with branches := ks } }

theorem branchesOf_reorder_of_ne {i : Nat} (hi : i ≠ b) :
    (f.reorder b ks).branchesOf i = f.branchesOf i := by
  simp [branchesOf, reorder, Ne.symm hi]

theorem branchesOf_reorder {block : Block} (hb : f.blocks[b]? = some block) :
    (f.reorder b ks).branchesOf b = ks := by
  simp [branchesOf, reorder, hb]

theorem branchesOf_reorder_perm (hks : ks.Perm (f.branchesOf b)) (i : Nat) :
    ((f.reorder b ks).branchesOf i).Perm (f.branchesOf i) := by
  by_cases hi : i = b
  · subst hi
    cases hblock : f.blocks[i]? with
    | some block =>
      rw [branchesOf_reorder hblock]
      exact hks
    | none => simp [branchesOf, reorder, hblock]
  · rw [branchesOf_reorder_of_ne hi]

/-- A block after the alternatives of one were put in another order. -/
theorem block_of_reorder (hks : ks.Perm (f.branchesOf b)) {i : Nat} {block : Block}
    (h : (f.reorder b ks).blocks[i]? = some block) :
    ∃ old, f.blocks[i]? = some old ∧ block.owner = old.owner ∧
      block.branches.Perm old.branches := by
  simp only [reorder, List.getElem?_modify] at h
  obtain ⟨old, hold, rfl⟩ := Option.map_eq_some_iff.mp h
  refine ⟨old, hold, ?_⟩
  split
  · next hbi =>
    subst hbi
    refine ⟨rfl, hks.trans ?_⟩
    simp [branchesOf, hold]
  · exact ⟨rfl, .refl _⟩

/-- **The order of alternatives is no matter of coherence.** -/
theorem Coherent.reorder (h : f.Coherent) (hks : ks.Perm (f.branchesOf b)) :
    (f.reorder b ks).Coherent where
  origin := h.origin
  branches := by
    have hlength : (f.reorder b ks).blocks.length = f.blocks.length := by simp [Family.reorder]
    rw [← flatMap_branchesOf, hlength]
    refine (List.Perm.flatMap_left _ fun i _ => branchesOf_reorder_perm hks i).trans ?_
    rw [flatMap_branchesOf]
    exact h.branches
  queued := by
    intro j m i hm hi
    obtain ⟨block, hblock, hown⟩ := h.queued hm hi
    simp only [Family.reorder, List.getElem?_modify, hblock]
    refine ⟨_, rfl, ?_⟩
    split <;> exact hown
  forked := by
    intro i block c hi hc
    obtain ⟨old, hold, hown, hperm⟩ := block_of_reorder hks hi
    rw [hown]
    exact h.forked hold (hperm.subset hc)
  owners := by
    intro i block hi
    obtain ⟨old, hold, hown, -⟩ := block_of_reorder hks hi
    rw [hown]
    exact h.owners hold
  placed := by
    simpa [Family.reorder, closedBlocks] using h.placed

/-- **The order of the alternatives of a block does not matter to a run that begins below it.** -/
theorem Linked.run_reorder (h : f.Linked) (hb : .block b ∈ f.queueOf k) (ks : List ChainId)
    (hc : k < c) : (f.reorder b ks).run c = f.run c := by
  obtain ⟨m, hm, hmb⟩ := mem_queueOf.mp hb
  obtain ⟨block, hblock, hown⟩ := h.queued hm hmb
  refine (runMember_frame (f := f) (g := f.reorder b ks) (k < ·) (fun _ _ => rfl)
    (fun j i hj hi => ?_) hc).symm
  have hne : i ≠ b := by
    rintro rfl
    obtain ⟨n, hn, hni⟩ := mem_queueOf.mp hi
    obtain ⟨block', hblock', hown'⟩ := h.queued hn hni
    obtain rfl : block = block' := Option.some.inj (hblock.symm.trans hblock')
    exact Nat.ne_of_lt hj (hown.symm.trans hown')
  rw [branchesOf_reorder_of_ne hne]
  exact ⟨rfl, fun c hc => Nat.lt_trans hj (h.lt_of_child (mem_children.mpr ⟨i, hi, hc⟩)).1⟩

/-- What a run leaves has the properties that go over to parts, if what it begins with has them. -/
theorem Reached.run_hereditary {P : Value → Prop} (hP : Value.Hereditary P)
    {document : Document} {description : String} {limit : Int} {raising : Bool}
    (hf : Reached Call.SeeksParts (Family.start document description limit raising) f)
    (hroot : P document.root) (hvs : ∀ v ∈ vs, P v) (c : ChainId) :
    ∀ v ∈ (f.run c vs).candidates, P v := by
  have hstart : (Family.start document description limit raising).Agrees (Value.EqWith P)
      (Family.start document description limit raising) :=
    agrees_start document description description limit limit raising ⟨rfl, hroot⟩ rfl
  have hrun := (hf.eqWith hP hstart).run (Value.likeness_eqWith hP) c vs vs
    (Value.forall₂_eqWith.mpr hvs)
  exact Value.forall₂_eqWith.mp hrun.candidates

section

variable {g : Family} {ran ran' : Ran} {record record' : Record} {visits visits' : List Visit}

theorem EachAlone.candidates_of_failed (h : f.EachAlone b vs ran record visits)
    (hp : ran.passed = false) : ran.candidates = vs := by
  rw [h.candidates, if_neg (by simp [hp])]

theorem EachAlone.candidates_of_passed (h : f.EachAlone b vs ran record visits)
    (hp : ran.passed = true) :
    ran.candidates = firstOccurrences (survivors f.run vs (f.branchesOf b)).flatten := by
  rw [h.candidates, if_pos hp]

/-- What holds of the candidates of every alternative holds of those that the block goes on with. -/
theorem EachAlone.forall_mem (h : f.EachAlone b vs ran record visits) (hp : ran.passed = true)
    {P : Value → Prop} (hP : ∀ c, ∀ v ∈ (f.run c vs).candidates, P v) :
    ∀ v ∈ ran.candidates, P v := by
  intro v hv
  rw [h.candidates_of_passed hp] at hv
  exact forall_mem_survivors (fun c _ => hP c) v ((firstOccurrences_sublist _).subset hv)

variable (h : f.EachAlone b vs ran record visits) (h' : g.EachAlone b vs ran' record' visits')
  (hks : (g.branchesOf b).Perm (f.branchesOf b))
  (hrun : ∀ c ∈ g.branchesOf b, g.run c vs = f.run c vs)

include h h' hks hrun

/-- The block passes in both orders, or in neither. -/
theorem EachAlone.passed_eq : ran.passed = ran'.passed := by
  rw [h.passed, h'.passed, ← hks.any_eq, Bool.eq_iff_iff, List.any_eq_true, List.any_eq_true]
  exact exists_congr fun c => and_congr_right fun hc => by rw [hrun c hc]

/-- What the block goes on with in one order matches what it goes on with in the other. -/
theorem EachAlone.candidates_match (hp : ran.passed = true)
    (hcomparable : ∀ c, ∀ v ∈ (f.run c vs).candidates, v.Comparable) :
    ∃ ws, ws.Perm ran'.candidates ∧ List.Forall₂ Value.Counterpart ran.candidates ws := by
  have hp' : ran'.passed = true := h.passed_eq h' hks hrun ▸ hp
  rw [h.candidates_of_passed hp, h'.candidates_of_passed hp', survivors_congr hrun]
  exact firstOccurrences_perm (forall_mem_survivors fun c _ => hcomparable c)
    (survivors_perm hks.symm).flatten

end

/-- **Alternatives are isolated, and their order does not matter.** A closed block is run from
candidates that can be compared throughout, all queries find nothing but parts, and no alternative
is interrupted. Then each of them,
with the members below it, is left as if it had been run alone from these candidates. The block
passes in one order of the alternatives iff it passes in the other. If it passes, what it goes on
with matches one to one, each value being the same candidate as its counterpart, unless both are
NaN; if it fails, it goes on with what it began with. Whatever earlier runs left, running the block
from the same candidates comes to the same. -/
theorem alternatives_isolated {document : Document} {description : String} {limit : Int}
    {raising : Bool} (hf : Reached Call.SeeksParts (start document description limit raising) f)
    (hb : .block b ∈ f.queueOf k) (hks : ks.Perm (f.branchesOf b))
    (hroot : document.root.Proper) (hvs : ∀ v ∈ vs, v.Proper)
    (hnone : ∀ c ∈ f.branchesOf b, (f.run c vs).fault = none) :
    let g := f.reorder b ks
    g.branchesOf b = ks ∧ (∀ c ∈ ks, g.run c vs = f.run c vs) ∧
    ∃ ran record visits ran' record' visits',
      runEntry f.run f.branchesOf vs (.block b) = (.ok (ran, record), visits) ∧
      runEntry g.run g.branchesOf vs (.block b) = (.ok (ran', record'), visits') ∧
      f.EachAlone b vs ran record visits ∧ g.EachAlone b vs ran' record' visits' ∧
      ran.passed = ran'.passed ∧
      (ran.passed = true → ∃ ws, ws.Perm ran'.candidates ∧
        List.Forall₂ Value.Counterpart ran.candidates ws ∧
        (document.root.WellFormed → (∀ v ∈ vs, v.WellFormed) →
          List.Forall₂ Value.Same ran.candidates ws)) ∧
      (ran.passed = false → ran.candidates = vs ∧ ran'.candidates = vs) ∧
      ∀ left,
        runEntry (f.recordVisits left).run (f.recordVisits left).branchesOf vs (.block b)
          = (.ok (ran, record), visits) ∧
        ∀ v ∈ visits, ((f.recordVisits left).recordVisits visits).member? v.member
          = (f.recordVisits visits).member? v.member := by
  intro g
  have hcoherent := hf.coherent_of_any (coherent_start document description limit raising)
  obtain ⟨m, hm, hmb⟩ := mem_queueOf.mp hb
  obtain ⟨block, hblock, -⟩ := hcoherent.queued hm hmb
  have hbranches : g.branchesOf b = ks := branchesOf_reorder hblock
  have hrun : ∀ c ∈ ks, g.run c vs = f.run c vs := fun c hc =>
    congrFun (hcoherent.run_reorder hb ks
      (hcoherent.lt_of_child (mem_children.mpr ⟨b, hb, hks.subset hc⟩)).1) vs
  have hcomparable : ∀ c, ∀ v ∈ (f.run c vs).candidates, v.Comparable := fun c v hv =>
    hf.run_hereditary Value.hereditary_proper hroot hvs c v hv v .root
  obtain ⟨ran, record, visits, he, halone⟩ :=
    hcoherent.each_alone hb hnone fun c _ => hcomparable c
  have hks' : (g.branchesOf b).Perm (f.branchesOf b) := hbranches ▸ hks
  have hrun' : ∀ c ∈ g.branchesOf b, g.run c vs = f.run c vs := hbranches ▸ hrun
  obtain ⟨ran', record', visits', he', halone'⟩ := (hcoherent.reorder hks).each_alone (k := k) hb
    (fun c hc => hrun' c hc ▸ hnone c (hks'.subset hc)) fun c hc => hrun' c hc ▸ hcomparable c
  have hpassed := halone.passed_eq halone' hks' hrun'
  refine ⟨hbranches, hrun, ran, record, visits, ran', record', visits', he, he', halone, halone',
    hpassed, fun hp => ?_, fun hp => ?_, fun left => ⟨?_, fun v hv => ?_⟩⟩
  · obtain ⟨ws, hws, hmatch⟩ := halone.candidates_match halone' hks' hrun' hp hcomparable
    refine ⟨ws, hws, hmatch, fun hroot hvs => forall₂_same_of_ne_nan ?_ hmatch⟩
    exact halone.forall_mem hp fun c v hv =>
      (hf.run_hereditary Value.hereditary_wellFormed hroot hvs c v hv).ne_nan
  · exact ⟨halone.candidates_of_failed hp, halone'.candidates_of_failed (hpassed ▸ hp)⟩
  · have hsame := samePlan_recordVisits f left
    rw [← hsame.run_eq, ← hsame.branchesOf_eq]
    exact he
  · exact (samePlan_recordVisits f left).symm.member?_recordVisits (List.mem_map_of_mem hv)

/-- Alternatives that come to one number in both its forms. -/
theorem alternatives_isolated_of_equal_numbers :
    let one := Value.float (.finite false (2 ^ 52) (-52))
    let root := Value.object 1 .plain [(.str "a", .int 1), (.str "b", one)]
    ∃ f ran record visits ran' record' visits',
      Reached Call.SeeksParts (start (.ofValue root) "json document" 100 false) f ∧
      .block 0 ∈ f.queueOf 0 ∧ f.branchesOf 0 = [1, 2] ∧
      runEntry f.run f.branchesOf [root] (.block 0) = (.ok (ran, record), visits) ∧
      runEntry (f.reorder 0 [2, 1]).run (f.reorder 0 [2, 1]).branchesOf [root] (.block 0)
        = (.ok (ran', record'), visits') ∧
      ran.passed = true ∧ ran.candidates = [.int 1] ∧ ran'.candidates = [one] ∧
      ∃ ws, ws.Perm ran'.candidates ∧ List.Forall₂ Value.Same ran.candidates ws := by
  intro one root
  let f₁ := ((start (.ofValue root) "json document" 100 false).call 0 .openBlock).1
  let f₂ := (f₁.call 1 (.queue (.atPath (.str "/a")))).1
  let f₃ := (f₂.call 1 .nextBranch).1
  let f₄ := (f₃.call 2 (.queue (.atPath (.str "/b")))).1
  let f := (f₄.call 2 .closeBlock).1
  have hf : Reached Call.SeeksParts (start (.ofValue root) "json document" 100 false) f :=
    .call (.call (.call (.call (.call .start (k := 0) (by decide) trivial) (k := 1) (by decide)
      trivial) (k := 1) (by decide) trivial) (k := 2) (by decide) trivial) (k := 2) (by decide)
      trivial
  have hwell : root.WellFormed := by
    simp [root, one, Value.WellFormed, Value.WellFormedEntries, Double.IsNumber,
      Double.mantissaBound, Double.minExponent, Double.maxExponent]
  have hvs : ∀ v ∈ [root], v.WellFormed := List.forall_mem_singleton.mpr hwell
  have hb : .block 0 ∈ f.queueOf 0 := List.mem_singleton_self _
  have hnone : ∀ c ∈ f.branchesOf 0, (f.run c [root]).fault = none := by
    intro c hc
    rcases List.mem_cons.mp hc with rfl | hc
    · rfl
    · rw [List.mem_singleton.mp hc]
      rfl
  have hks : [2, 1].Perm (f.branchesOf 0) := List.Perm.swap ..
  obtain ⟨-, -, ran, record, visits, ran', record', visits', he, he', -, -, -, hmatch, -⟩ :=
    alternatives_isolated hf hb hks hwell.proper (fun v hv => (hvs v hv).proper) hnone
  let result (r : Ran × Record) : Bool × List Value := (r.1.passed, r.1.candidates)
  have hran : (runEntry f.run f.branchesOf [root] (.block 0)).1.map result
      = .ok (true, [.int 1]) := rfl
  have hran' : (runEntry (f.reorder 0 [2, 1]).run (f.reorder 0 [2, 1]).branchesOf [root]
      (.block 0)).1.map result = .ok (true, [one]) := rfl
  rw [he] at hran
  rw [he'] at hran'
  obtain ⟨hp, hcandidates⟩ := Prod.mk.inj (Except.ok.inj hran)
  obtain ⟨-, hcandidates'⟩ := Prod.mk.inj (Except.ok.inj hran')
  obtain ⟨ws, hws, -, hsame⟩ := hmatch hp
  exact ⟨f, ran, record, visits, ran', record', visits', hf, hb, rfl, he, he', hp, hcandidates,
    hcandidates', ws, hws, hsame hwell hvs⟩

end Family

end Attest

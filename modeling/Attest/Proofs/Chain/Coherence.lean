import Attest.Proofs.Chain.Reached

/-!
# Coherence of families

Members, blocks and the stack of open blocks refer to each other by number. This file states how,
and that no order of building calls on whatever members can break it.

The two counting facts are stated as permutations and not as "for every block there is exactly
one place": a permutation says existence and uniqueness at once, and it goes through a change of
a family by rewriting, since every change adds to the end of one list, or to one element of it.

## Main definitions

* `Family.Coherent` — members, blocks, stack and queues fit together
* `Family.closedBlocks` — the blocks that wait in queues, with repetitions

## Main results

* `Family.Coherent.call` — a building call keeps a family coherent
* `Family.Reached.coherent` — so do any number of them
-/

namespace Attest

/-- The block that an entry runs. -/
def Entry.block? : Entry → Option Nat
  | .step _ => none
  | .block b => some b

/-- The blocks in the queue of a member. -/
def Member.blocks (m : Member) : List Nat := m.queue.filterMap Entry.block?

namespace Family

/-- The blocks in all queues, once for every entry that runs them. -/
def closedBlocks (f : Family) : List Nat := f.members.flatMap Member.blocks

/-- Members, blocks and queues fit together. The stack of open blocks plays no part in this. -/
structure Linked (f : Family) : Prop where
  /-- The origin was not forked. -/
  origin : ∃ m, f.member? 0 = some m ∧ m.parent = none
  /-- Every other member is an alternative of exactly one block. -/
  branches : (f.blocks.flatMap Block.branches).Perm (List.range' 1 (f.members.length - 1))
  /-- The queue that a block is in is that of its owner. -/
  queued : ∀ {k : ChainId} {m : Member} {b : Nat}, f.member? k = some m → .block b ∈ m.queue →
    ∃ block, f.blocks[b]? = some block ∧ block.owner = k
  /-- An alternative was forked from the owner of its block, after it and one deeper. -/
  forked : ∀ {b : Nat} {block : Block} {c : ChainId}, f.blocks[b]? = some block →
    c ∈ block.branches → ∃ o m, f.member? block.owner = some o ∧ f.member? c = some m ∧
      m.parent = some block.owner ∧ m.depth = o.depth + 1 ∧ block.owner < c
  /-- The owner of a block is a member. -/
  owners : ∀ {b : Nat} {block : Block}, f.blocks[b]? = some block →
    block.owner < f.members.length

/-- Linked, and every block is either on the stack or in a queue, and there once. -/
structure Coherent (f : Family) : Prop extends Linked f where
  placed : (f.openBlocks ++ f.closedBlocks).Perm (List.range f.blocks.length)

theorem Linked.length_pos {f : Family} (h : f.Linked) : 0 < f.members.length := by
  obtain ⟨m, hm, _⟩ := h.origin
  exact (List.getElem?_eq_some_iff.mp hm).1

/-- A block of the stack is a block. -/
theorem Coherent.block_of_open {f : Family} (h : f.Coherent) {b : Nat} (hb : b ∈ f.openBlocks) :
    ∃ block, f.blocks[b]? = some block := by
  have hlt : b < f.blocks.length :=
    List.mem_range.mp (h.placed.mem_iff.mp (List.mem_append_left _ hb))
  exact ⟨_, List.getElem?_eq_getElem hlt⟩

theorem coherent_start (document : Document) (description : String) (limit : Int)
    (raising : Bool) : (start document description limit raising).Coherent where
  origin := ⟨_, rfl, rfl⟩
  branches := by simp [start]
  placed := by simp [start, closedBlocks, Member.blocks]
  queued := by
    intro k m b hm hb
    cases k with
    | zero => simp [start, member?] at hm; subst hm; simp at hb
    | succ k => simp [start, member?] at hm
  forked := by simp [start]
  owners := by simp [start]

/-! ### Queueing a step -/

theorem member?_queueFor (f : Family) (k j : ChainId) (entry : Entry) :
    (f.queueFor k entry).member? j
      = (f.member? j).map fun m => if k = j then { m with queue := m.queue ++ [entry] } else m := by
  simp only [queueFor, modifyMember, member?, List.getElem?_modify]
  split <;> cases f.members[j]? <;> simp_all

/-- What was there before an entry was queued, seen from afterwards. -/
theorem member_of_queueFor {f : Family} {k j : ChainId} {entry : Entry} {m : Member}
    (h : (f.queueFor k entry).member? j = some m) :
    ∃ old, f.member? j = some old ∧ m.parent = old.parent ∧ m.depth = old.depth ∧
      ((m.queue = old.queue) ∨ (k = j ∧ m.queue = old.queue ++ [entry])) := by
  rw [member?_queueFor] at h
  obtain ⟨old, hold, rfl⟩ := Option.map_eq_some_iff.mp h
  refine ⟨old, hold, ?_⟩
  split
  · next hk => exact ⟨rfl, rfl, .inr ⟨hk, rfl⟩⟩
  · exact ⟨rfl, rfl, .inl rfl⟩

theorem member?_queueFor_of_some {f : Family} {j : ChainId} {m : Member}
    (h : f.member? j = some m) (k : ChainId) (entry : Entry) :
    ∃ new, (f.queueFor k entry).member? j = some new ∧ new.parent = m.parent ∧
      new.depth = m.depth := by
  rw [member?_queueFor, h]
  refine ⟨_, rfl, ?_⟩
  split <;> exact ⟨rfl, rfl⟩

@[simp] theorem length_members_queueFor (f : Family) (k : ChainId) (entry : Entry) :
    (f.queueFor k entry).members.length = f.members.length := by
  simp [queueFor, modifyMember]

@[simp] theorem blocks_queueFor (f : Family) (k : ChainId) (entry : Entry) :
    (f.queueFor k entry).blocks = f.blocks := rfl

@[simp] theorem openBlocks_queueFor (f : Family) (k : ChainId) (entry : Entry) :
    (f.queueFor k entry).openBlocks = f.openBlocks := rfl

theorem closedBlocks_queueFor {f : Family} {k : ChainId} (hk : k < f.members.length)
    (entry : Entry) :
    (f.queueFor k entry).closedBlocks.Perm (entry.block?.toList ++ f.closedBlocks) := by
  refine perm_flatMap_modify (fun m => ?_) hk
  have hone : [entry].filterMap Entry.block? = entry.block?.toList := by
    cases entry <;> rfl
  rw [Member.blocks, List.filterMap_append, hone]
  exact List.perm_append_comm

/-- A step may be queued anywhere, and a block on its owner. -/
theorem Linked.queueFor {f : Family} (h : f.Linked) {k : ChainId} {entry : Entry}
    (owned : ∀ {b}, entry = .block b → ∃ block, f.blocks[b]? = some block ∧ block.owner = k) :
    (f.queueFor k entry).Linked where
  origin := by
    obtain ⟨m, hm, hp⟩ := h.origin
    obtain ⟨new, hnew, hparent, _⟩ := member?_queueFor_of_some hm k entry
    exact ⟨new, hnew, hparent.trans hp⟩
  branches := by simpa using h.branches
  queued := by
    intro j m b hm hb
    obtain ⟨old, hold, _, _, hq | ⟨rfl, hq⟩⟩ := member_of_queueFor hm
    · exact h.queued hold (hq ▸ hb)
    · rcases List.mem_append.mp (hq ▸ hb) with hb | hb
      · exact h.queued hold hb
      · exact owned (List.mem_singleton.mp hb).symm
  forked := by
    intro b block c hb hc
    obtain ⟨o, m, ho, hm, hp, hd, hlt⟩ := h.forked hb hc
    obtain ⟨o', ho', _, hdo⟩ := member?_queueFor_of_some ho k entry
    obtain ⟨m', hm', hp', hdm⟩ := member?_queueFor_of_some hm k entry
    exact ⟨o', m', ho', hm', hp'.trans hp, by rw [hdm, hdo, hd], hlt⟩
  owners := by
    intro b block hb
    rw [length_members_queueFor]
    exact h.owners hb

theorem Coherent.queueStep {f : Family} (h : f.Coherent) {k : ChainId}
    (hk : k < f.members.length) (s : Step) : (f.queueFor k (.step s)).Coherent where
  toLinked := h.toLinked.queueFor (by rintro b ⟨⟩)
  placed := ((closedBlocks_queueFor hk (.step s)).append_left _).trans h.placed

/-! ### Blocks -/

theorem Coherent.pushBlock {f : Family} (h : f.Coherent) {k : ChainId}
    (hk : k < f.members.length) : (f.pushBlock k).Coherent where
  origin := h.origin
  branches := by simpa [Family.pushBlock] using h.branches
  queued := by
    intro j m b hm hb
    obtain ⟨block, hblock, ho⟩ := h.queued hm hb
    refine ⟨block, ?_, ho⟩
    rw [Family.pushBlock, List.getElem?_append_left (List.getElem?_eq_some_iff.mp hblock).1]
    exact hblock
  forked := by
    intro b block c hb hc
    rcases Nat.lt_or_ge b f.blocks.length with hlt | hge
    · rw [Family.pushBlock, List.getElem?_append_left hlt] at hb
      exact h.forked hb hc
    · rw [Family.pushBlock, List.getElem?_append_right hge] at hb
      rw [List.mem_singleton.mp (List.mem_of_getElem? hb)] at hc
      simp at hc
  owners := by
    intro b block hb
    rcases Nat.lt_or_ge b f.blocks.length with hlt | hge
    · rw [Family.pushBlock, List.getElem?_append_left hlt] at hb
      exact h.owners hb
    · rw [Family.pushBlock, List.getElem?_append_right hge] at hb
      rw [List.mem_singleton.mp (List.mem_of_getElem? hb)]
      exact hk
  placed := by
    simp only [Family.pushBlock, closedBlocks, List.length_append, List.length_singleton,
      List.range_succ, List.cons_append]
    exact (h.placed.cons _).trans (List.perm_append_singleton _ _).symm

theorem members_branchInto {f : Family} {owner : ChainId} {o : Member}
    (ho : f.member? owner = some o) (b : Nat) :
    (f.branchInto b owner).members = f.members ++ [⟨some owner, o.depth + 1, [], [], []⟩] := by
  simp [Family.branchInto, branchOff, ho]

theorem member?_branchInto_of_some {f : Family} {owner k : ChainId} {m : Member} (b : Nat)
    (h : f.member? k = some m) : (f.branchInto b owner).member? k = some m := by
  have hk : k < f.members.length := (List.getElem?_eq_some_iff.mp h).1
  rw [member?, Family.branchInto, branchOff, List.getElem?_append_left hk]
  exact h

/-- A block after an alternative was forked into one of the blocks. -/
theorem block_of_branchInto {f : Family} {owner : ChainId} {b i : Nat} {block : Block}
    (h : (f.branchInto b owner).blocks[i]? = some block) :
    ∃ old, f.blocks[i]? = some old ∧ block.owner = old.owner ∧
      (block.branches = old.branches ∨
        (b = i ∧ block.branches = old.branches ++ [f.members.length])) := by
  simp only [Family.branchInto, List.getElem?_modify] at h
  obtain ⟨old, hold, rfl⟩ := Option.map_eq_some_iff.mp h
  refine ⟨old, hold, ?_⟩
  split
  · next hb => exact ⟨rfl, .inr ⟨hb, rfl⟩⟩
  · exact ⟨rfl, .inl rfl⟩

theorem block_branchInto_of_some {f : Family} {i : Nat} {block : Block}
    (h : f.blocks[i]? = some block) (b : Nat) (owner : ChainId) :
    ∃ new, (f.branchInto b owner).blocks[i]? = some new ∧ new.owner = block.owner := by
  simp only [Family.branchInto, List.getElem?_modify, h]
  refine ⟨_, rfl, ?_⟩
  split <;> rfl

theorem Coherent.branchInto {f : Family} (h : f.Coherent) {b : Nat} {block : Block}
    (hb : f.blocks[b]? = some block) : (f.branchInto b block.owner).Coherent := by
  obtain ⟨o, ho⟩ : ∃ o, f.member? block.owner = some o :=
    ⟨_, List.getElem?_eq_getElem (h.owners hb)⟩
  have hpos := h.length_pos
  have hmembers := members_branchInto ho b
  refine ⟨⟨?_, ?_, ?_, ?_, ?_⟩, ?_⟩
  · obtain ⟨m, hm, hp⟩ := h.origin
    exact ⟨m, member?_branchInto_of_some b hm, hp⟩
  · have hadd : ((f.branchInto b block.owner).blocks.flatMap Block.branches).Perm
        ([f.members.length] ++ f.blocks.flatMap Block.branches) :=
      perm_flatMap_modify (fun a => List.perm_append_comm) (List.getElem?_eq_some_iff.mp hb).1
    have hrange : List.range' 1 (f.members.length + 1 - 1)
        = List.range' 1 (f.members.length - 1) ++ [f.members.length] := by
      rw [show f.members.length + 1 - 1 = f.members.length - 1 + 1 by omega,
        List.range'_concat, show 1 + 1 * (f.members.length - 1) = f.members.length by omega]
    rw [hmembers, List.length_append, List.length_singleton, hrange]
    exact hadd.trans ((h.branches.cons _).trans (List.perm_append_singleton _ _).symm)
  · intro j m i hm hi
    rw [member?, hmembers] at hm
    rcases Nat.lt_or_ge j f.members.length with hlt | hge
    · rw [List.getElem?_append_left hlt] at hm
      obtain ⟨old, hold, hown⟩ := h.queued hm hi
      obtain ⟨new, hnew, hnown⟩ := block_branchInto_of_some hold b block.owner
      exact ⟨new, hnew, hnown.trans hown⟩
    · rw [List.getElem?_append_right hge] at hm
      rw [List.mem_singleton.mp (List.mem_of_getElem? hm)] at hi
      simp at hi
  · intro i new c hi hc
    obtain ⟨old, hold, hown, hbr | ⟨rfl, hbr⟩⟩ := block_of_branchInto hi
    · obtain ⟨o', m, ho', hm, hrest⟩ := h.forked hold (hbr ▸ hc)
      rw [hown]
      exact ⟨o', m, member?_branchInto_of_some b ho', member?_branchInto_of_some b hm, hrest⟩
    · obtain rfl : old = block := Option.some.inj (hold.symm.trans hb)
      rw [hown]
      rcases List.mem_append.mp (hbr ▸ hc) with hc | hc
      · obtain ⟨o', m, ho', hm, hrest⟩ := h.forked hold hc
        exact ⟨o', m, member?_branchInto_of_some b ho', member?_branchInto_of_some b hm, hrest⟩
      · -- the new alternative itself
        obtain rfl := List.mem_singleton.mp hc
        refine ⟨o, ⟨some old.owner, o.depth + 1, [], [], []⟩, member?_branchInto_of_some b ho, ?_,
          rfl, rfl, h.owners hold⟩
        rw [member?, hmembers, List.getElem?_append_right (Nat.le_refl _)]
        simp
  · intro i new hi
    obtain ⟨old, hold, hown, _⟩ := block_of_branchInto hi
    rw [hown, hmembers, List.length_append]
    exact Nat.lt_add_right _ (h.owners hold)
  · rw [closedBlocks, hmembers, List.flatMap_append]
    simpa [closedBlocks, Member.blocks, Family.branchInto, branchOff] using h.placed

theorem Coherent.popBlock {f : Family} (h : f.Coherent) {b : Nat} {rest : List Nat}
    {block : Block} (ho : f.openBlocks = b :: rest) (hb : f.blocks[b]? = some block) :
    (f.popBlock b block.owner).Coherent := by
  have hk := h.owners hb
  -- on the way the block is neither on the stack nor in a queue, so the family is only linked
  let g : Family := { f with openBlocks := f.openBlocks.tail }
  have hg : g.Linked := ⟨h.origin, h.branches, h.queued, h.forked, h.owners⟩
  have hclosed : (g.queueFor block.owner (.block b)).closedBlocks.Perm (b :: f.closedBlocks) :=
    closedBlocks_queueFor (f := g) hk (.block b)
  refine ⟨hg.queueFor ?_, ?_⟩
  · rintro i ⟨rfl⟩
    exact ⟨block, hb, rfl⟩
  · have hplaced := h.placed
    rw [ho] at hplaced
    have htail : (f.popBlock b block.owner).openBlocks = rest := by simp [Family.popBlock, ho]
    rw [htail]
    exact (hclosed.append_left rest).trans (List.perm_middle.trans hplaced)

theorem Coherent.noteMisuse {f : Family} (h : f.Coherent) (message : String) :
    (f.noteMisuse message).Coherent :=
  ⟨⟨h.origin, h.branches, h.queued, h.forked, h.owners⟩, h.placed⟩

/-! ### Calls -/

theorem Coherent.nextBranch {f : Family} (h : f.Coherent) (k : ChainId) :
    (f.nextBranch k).1.Coherent := by
  cases ho : f.openBlocks with
  | nil => simpa [Family.nextBranch, ho] using h.noteMisuse _
  | cons b rest =>
    obtain ⟨block, hb⟩ := h.block_of_open (b := b) (by simp [ho])
    rw [nextBranch_of_open ho hb]
    exact h.branchInto hb

theorem Coherent.closeBlock {f : Family} (h : f.Coherent) (k : ChainId) :
    (f.closeBlock k).1.Coherent := by
  cases ho : f.openBlocks with
  | nil => simpa [Family.closeBlock, ho] using h.noteMisuse _
  | cons b rest =>
    obtain ⟨block, hb⟩ := h.block_of_open (b := b) (by simp [ho])
    rw [closeBlock_of_open ho hb]
    exact h.popBlock ho hb

/-- **A building call on any member keeps a family coherent.** -/
theorem Coherent.call {f : Family} (h : f.Coherent) {k : ChainId} (hk : k < f.members.length)
    {c : Call} (hc : c.Builds) : (f.call k c).1.Coherent := by
  rcases call_of_builds (f := f) (k := k) hc with he | ⟨s, he⟩ | he | he | he <;> rw [he]
  · exact h
  · exact h.queueStep hk s
  · rw [openBlock_eq]
    exact (h.pushBlock hk).nextBranch k
  · exact h.nextBranch k
  · exact h.closeBlock k

/-- **So do any number of them, in any order.** -/
theorem Reached.coherent {f g : Family} (hf : f.Coherent) (h : Reached Call.Builds f g) :
    g.Coherent := by
  induction h with
  | start => exact hf
  | call _ hk hc ih => exact ih.call hk hc

end Family

end Attest

import Attest.Proofs.Chain.Fitting

/-!
# Strung calls mean their tree

Calls that are strung together, each made on the chain that the one before gave back, spell a tree
in brackets. They scatter it over a family: members are forked, blocks pushed, queues filled. This
file proves that they leave the pieces so that running the origin does what the tree means.

The calls of a track append a queue that fits it. What was appended early has to fit in the family
that there is in the end, when queues have grown and blocks were added. So the statement is about
every later family that still holds the members and blocks made on the way, and what a sequence of
calls leaves alone is part of it: these are the two relations `Keeps` and `Holds`.

## Main definitions

* `Family.fluent` — calls strung together
* `Family.Keeps`, `Family.Holds` — what calls leave alone, and what they add
* `Family.Lays`, `Family.LaysOthers` — the queue that was appended fits what was spelled

## Main results

* `Family.lays_track` — the calls of a track append a queue that fits it
* `Family.fluent_means_tree` — a chain of strung calls means its tree
-/

namespace Attest

namespace Family

/-- Calls strung together: each is made on the chain that the one before gave back. -/
def fluent (f : Family) (k : ChainId) : List Call → Option (Family × ChainId)
  | [] => some (f, k)
  | c :: rest =>
    match f.call k c with
    | (g, .ok (.chain j)) => g.fluent j rest
    | _ => none

theorem fluent_append {f : Family} {k : ChainId} {calls rest : List Call} :
    f.fluent k (calls ++ rest) = (f.fluent k calls).bind fun r => r.1.fluent r.2 rest := by
  induction calls generalizing f k with
  | nil => rfl
  | cons c calls ih =>
    simp only [List.cons_append, fluent]
    split
    · exact ih
    · rfl

theorem fluent_append_some {f : Family} {k : ChainId} {calls rest : List Call}
    {r : Family × ChainId} (h : f.fluent k (calls ++ rest) = some r) :
    ∃ g j, f.fluent k calls = some (g, j) ∧ g.fluent j rest = some r := by
  rw [fluent_append] at h
  obtain ⟨⟨g, j⟩, hg, hr⟩ := Option.bind_eq_some_iff.mp h
  exact ⟨g, j, hg, hr⟩

/-! ### What calls leave alone -/

/-- Nothing was lost, and but for the queue of one member and possibly one block, what was there
is as it was. -/
structure Keeps (k : ChainId) (changed : Option Nat) (f g : Family) : Prop where
  document : g.document = f.document
  limit : g.limit = f.limit
  members : f.members.length ≤ g.members.length
  blocks : f.blocks.length ≤ g.blocks.length
  queueOf : ∀ {j : Nat}, j < f.members.length → j ≠ k → g.queueOf j = f.queueOf j
  block : ∀ {b : Nat}, b < f.blocks.length → changed ≠ some b → g.blocks[b]? = f.blocks[b]?

variable {f g h : Family} {k : Nat} {changed : Option Nat}

theorem Keeps.refl (k : ChainId) (changed : Option Nat) (f : Family) : Keeps k changed f f :=
  ⟨rfl, rfl, Nat.le_refl _, Nat.le_refl _, fun _ _ => rfl, fun _ _ => rfl⟩

theorem Keeps.trans (hfg : Keeps k changed f g) (hgh : Keeps k changed g h) :
    Keeps k changed f h where
  document := hgh.document.trans hfg.document
  limit := hgh.limit.trans hfg.limit
  members := Nat.le_trans hfg.members hgh.members
  blocks := Nat.le_trans hfg.blocks hgh.blocks
  queueOf hj hne := (hgh.queueOf (Nat.lt_of_lt_of_le hj hfg.members) hne).trans (hfg.queueOf hj hne)
  block hb hne := (hgh.block (Nat.lt_of_lt_of_le hb hfg.blocks) hne).trans (hfg.block hb hne)

/-- Whatever calls on a new member do, they do to no member that was there. -/
theorem Keeps.trans_new {n : Nat} (hfg : Keeps k changed f g) (hgh : Keeps n none g h)
    (hn : f.members.length ≤ n) : Keeps k changed f h where
  document := hgh.document.trans hfg.document
  limit := hgh.limit.trans hfg.limit
  members := Nat.le_trans hfg.members hgh.members
  blocks := Nat.le_trans hfg.blocks hgh.blocks
  queueOf hj hne :=
    (hgh.queueOf (Nat.lt_of_lt_of_le hj hfg.members) (by omega)).trans (hfg.queueOf hj hne)
  block hb hne :=
    (hgh.block (Nat.lt_of_lt_of_le hb hfg.blocks) (by simp)).trans (hfg.block hb hne)

theorem Keeps.branchesOf (hfg : Keeps k changed f g) {b : Nat} (hb : b < f.blocks.length)
    (hne : changed ≠ some b) : g.branchesOf b = f.branchesOf b := by
  rw [Family.branchesOf, Family.branchesOf, hfg.block hb hne]

/-! ### What calls add -/

/-- A family still has the members and blocks that `g` has and `f` had not. -/
structure Holds (f g h : Family) : Prop where
  document : h.document = f.document
  limit : h.limit = f.limit
  queueOf : ∀ {j : Nat}, f.members.length ≤ j → j < g.members.length → h.queueOf j = g.queueOf j
  branchesOf : ∀ {b : Nat}, f.blocks.length ≤ b → b < g.blocks.length →
    h.branchesOf b = g.branchesOf b

theorem Holds.self (hfg : Keeps k changed f g) : Holds f g g :=
  ⟨hfg.document, hfg.limit, fun _ _ => rfl, fun _ _ => rfl⟩

/-- What was added first is still there if what was added altogether is. -/
theorem Holds.first {f' : Family} (hh : Holds f g h) (hfg : Keeps k changed f' g)
    (hk : k < f.members.length)
    (hb : ∀ b, changed = some b → b < f.blocks.length) : Holds f f' h where
  document := hh.document
  limit := hh.limit
  queueOf hj hlt := (hh.queueOf hj (Nat.lt_of_lt_of_le hlt hfg.members)).trans
    (hfg.queueOf hlt (by omega))
  branchesOf {b} hle hlt := (hh.branchesOf hle (Nat.lt_of_lt_of_le hlt hfg.blocks)).trans
    (hfg.branchesOf hlt fun he => absurd (hb b he) (by omega))

/-- And so is what was added last. -/
theorem Holds.last {f' : Family} (hh : Holds f g h) (hff : Keeps k changed f f') :
    Holds f' g h where
  document := hh.document.trans hff.document.symm
  limit := hh.limit.trans hff.limit.symm
  queueOf hj := hh.queueOf (Nat.le_trans hff.members hj)
  branchesOf hb := hh.branchesOf (Nat.le_trans hff.blocks hb)

/-! ### Laying a track -/

/-- The queue of a member has grown by entries that fit a track, and no block is left open. -/
structure Lays (f : Family) (k : Nat) (t : List Stage) (g : Family) : Prop where
  openBlocks : g.openBlocks = f.openBlocks
  keeps : Keeps k none f g
  queued : ∃ queue, g.queueOf k = f.queueOf k ++ queue ∧ ∀ h, Holds f g h → TrackFits h t queue

/-- The innermost open block has got alternatives that fit tracks and was queued on its owner. -/
structure LaysOthers (f : Family) (k b : Nat) (ts : List (List Stage)) (g : Family) : Prop where
  openBlocks : g.openBlocks = f.openBlocks.tail
  keeps : Keeps k (some b) f g
  queued : g.queueOf k = f.queueOf k ++ [.block b]
  branches : ∃ ks, g.branchesOf b = f.branchesOf b ++ ks ∧ ∀ h, Holds f g h → EachFits h ts ks

/-- The innermost open block is that of a member. -/
structure Opened (f : Family) (k b : Nat) : Prop where
  top : ∃ rest, f.openBlocks = b :: rest
  owner : ∃ block, f.blocks[b]? = some block ∧ block.owner = k
  member : k < f.members.length

theorem queueOf_queueFor (hk : k < f.members.length) (entry : Entry) :
    (f.queueFor k entry).queueOf k = f.queueOf k ++ [entry] := by
  have hm : f.member? k = some f.members[k] := List.getElem?_eq_getElem hk
  simp [Family.queueOf, member?_queueFor, hm]

theorem queueOf_queueFor_of_ne {j : Nat} (hj : j ≠ k) (entry : Entry) :
    (f.queueFor k entry).queueOf j = f.queueOf j := by
  simp only [Family.queueOf, member?_queueFor, if_neg (Ne.symm hj), Option.map_id']

theorem keeps_queueFor (entry : Entry) : Keeps k none f (f.queueFor k entry) where
  document := rfl
  limit := rfl
  members := by simp
  blocks := Nat.le_refl _
  queueOf _ hne := queueOf_queueFor_of_ne hne entry
  block _ _ := rfl

theorem lays_nil : Lays f k [] f :=
  ⟨rfl, .refl k none f, [], (List.append_nil _).symm, fun _ _ => rfl⟩

theorem lays_plain {operation : Operation} {s : Step} (hk : k < f.members.length)
    (hs : operation.step f.document.root f.limit = .ok s) :
    Lays f k [.plain operation] (f.queueFor k (.step s)) := by
  refine ⟨rfl, keeps_queueFor _, [.step s], queueOf_queueFor hk _, fun h hh => ?_⟩
  refine ⟨_, _, rfl, ⟨s, ?_, rfl⟩, rfl⟩
  rw [hh.document, hh.limit, hs]

/-- Tracks are laid one after the other. -/
theorem Lays.cons {f' : Family} {s : Stage} {t : List Stage} (hk : k < f.members.length)
    (hs : Lays f k [s] f') (ht : Lays f' k t g) : Lays f k (s :: t) g := by
  obtain ⟨first, hfirst, hsfits⟩ := hs.queued
  obtain ⟨queue, hqueue, htfits⟩ := ht.queued
  refine ⟨ht.openBlocks.trans hs.openBlocks, hs.keeps.trans ht.keeps, first ++ queue, ?_, ?_⟩
  · rw [hqueue, hfirst, List.append_assoc]
  · intro h hh
    obtain ⟨entry, after, rfl, hentry, hafter⟩ := hsfits h (hh.first ht.keeps hk (by simp))
    have hnone : after = [] := hafter
    exact ⟨entry, queue, by simp [hnone], hentry, htfits h (hh.last hs.keeps)⟩

/-! ### Laying a block -/

theorem queueOf_branchInto_of_lt {j : Nat} (hj : j < f.members.length) (b : Nat)
    (owner : ChainId) : (f.branchInto b owner).queueOf j = f.queueOf j := by
  have hm : f.member? j = some f.members[j] := List.getElem?_eq_getElem hj
  rw [Family.queueOf, Family.queueOf, member?_branchInto_of_some b hm, hm]

theorem keeps_branchInto (k : Nat) (b : Nat) (owner : ChainId) :
    Keeps k (some b) f (f.branchInto b owner) where
  document := rfl
  limit := rfl
  members := by simp [branchInto, branchOff]
  blocks := by simp [branchInto]
  queueOf hj _ := queueOf_branchInto_of_lt hj b owner
  block _ hne := by
    simp only [branchInto]
    exact List.getElem?_modify_ne _ _ fun he => hne (congrArg some he)

theorem length_branchInto (b : Nat) (owner : ChainId) :
    (f.branchInto b owner).members.length = f.members.length + 1 := by
  simp [branchInto, branchOff]

theorem queueOf_branchInto (b : Nat) (owner : ChainId) :
    (f.branchInto b owner).queueOf f.members.length = [] := by
  simp [Family.queueOf, member?, branchInto, branchOff]

theorem branchesOf_branchInto {b : Nat} (hb : b < f.blocks.length) (owner : ChainId) :
    (f.branchInto b owner).branchesOf b = f.branchesOf b ++ [f.members.length] := by
  simp [Family.branchesOf, branchInto, List.getElem?_eq_getElem hb]

theorem Opened.lt {b : Nat} (h : Opened f k b) : b < f.blocks.length := by
  obtain ⟨block, hb, _⟩ := h.owner
  exact (List.getElem?_eq_some_iff.mp hb).1

theorem Opened.branchInto {b : Nat} (h : Opened f k b) : Opened (f.branchInto b k) k b := by
  obtain ⟨block, hb, ho⟩ := h.owner
  obtain ⟨new, hnew, hown⟩ := block_branchInto_of_some hb b k
  exact ⟨h.top, ⟨new, hnew, hown.trans ho⟩,
    Nat.lt_of_lt_of_le h.member (keeps_branchInto k b k).members⟩

theorem Opened.of_lays {b n : Nat} {t : List Stage} (h : Opened f k b) (ht : Lays f n t g) :
    Opened g k b where
  top := by rw [ht.openBlocks]; exact h.top
  owner := by rw [ht.keeps.block h.lt (by simp)]; exact h.owner
  member := Nat.lt_of_lt_of_le h.member ht.keeps.members

theorem Opened.nextBranch {b : Nat} (h : Opened f k b) (j : ChainId) :
    f.nextBranch j = (f.branchInto b k, f.members.length) := by
  obtain ⟨rest, ho⟩ := h.top
  obtain ⟨block, hb, rfl⟩ := h.owner
  exact nextBranch_of_open ho hb j

theorem Opened.closeBlock {b : Nat} (h : Opened f k b) (j : ChainId) :
    f.closeBlock j = (f.popBlock b k, k) := by
  obtain ⟨rest, ho⟩ := h.top
  obtain ⟨block, hb, rfl⟩ := h.owner
  exact closeBlock_of_open ho hb j

theorem opened_pushBlock (hk : k < f.members.length) :
    Opened (f.pushBlock k) k f.blocks.length where
  top := ⟨_, rfl⟩
  owner := ⟨⟨k, []⟩, by simp [pushBlock], rfl⟩
  member := hk

/-- A block that ends has no further alternatives. -/
theorem laysOthers_nil {b : Nat} (ho : Opened f k b) : LaysOthers f k b [] (f.popBlock b k) := by
  have hk : k < { f with openBlocks := f.openBlocks.tail }.members.length := ho.member
  refine ⟨rfl, ?_, queueOf_queueFor hk _, [], (List.append_nil _).symm, fun _ _ => rfl⟩
  exact ⟨rfl, rfl, (keeps_queueFor (f := { f with openBlocks := f.openBlocks.tail }) _).members,
    Nat.le_refl _, fun _ hne => queueOf_queueFor_of_ne hne _, fun _ _ => rfl⟩

/-- An alternative is forked and laid, and then the others are. -/
theorem LaysOthers.cons {b : Nat} {f' : Family} {t : List Stage} {ts : List (List Stage)}
    (ho : Opened f k b) (ht : Lays (f.branchInto b k) f.members.length t f')
    (hts : LaysOthers f' k b ts g) : LaysOthers f k b (t :: ts) g := by
  have hnew : Keeps k (some b) f (f.branchInto b k) := keeps_branchInto k b k
  have hlaid : Keeps k (some b) f f' := hnew.trans_new ht.keeps (Nat.le_refl _)
  have hlength := length_branchInto (f := f) b k
  have hmember := ho.member
  obtain ⟨queue, hqueue, htfits⟩ := ht.queued
  obtain ⟨ks, hks, htsfits⟩ := hts.branches
  rw [queueOf_branchInto, List.nil_append] at hqueue
  refine ⟨?_, hlaid.trans hts.keeps, ?_, f.members.length :: ks, ?_, fun h hh => ?_⟩
  · rw [hts.openBlocks, ht.openBlocks]
    rfl
  · rw [hts.queued, ht.keeps.queueOf (by omega) (by omega), queueOf_branchInto_of_lt hmember]
  · rw [hks, ht.keeps.branchesOf (Nat.lt_of_lt_of_le ho.lt hnew.blocks) (by simp),
      branchesOf_branchInto ho.lt, List.append_assoc]
    rfl
  · -- the new member is as it was when its track was laid, since the others are laid elsewhere
    have hlt : f.members.length < f'.members.length :=
      Nat.lt_of_lt_of_le (by omega) ht.keeps.members
    have hfirst : Holds (f.branchInto b k) f' h :=
      (hh.last hnew).first hts.keeps (by omega) fun i hi => by
        rw [← Option.some.inj hi]
        exact Nat.lt_of_lt_of_le ho.lt hnew.blocks
    have hsame : h.queueOf f.members.length = queue := by
      rw [hh.queueOf (Nat.le_refl _) (Nat.lt_of_lt_of_le hlt hts.keeps.members),
        hts.keeps.queueOf hlt (by omega), hqueue]
    exact ⟨_, ks, rfl, by rw [hsame]; exact htfits h hfirst, htsfits h (hh.last hlaid)⟩

/-- A block is pushed, gets its alternatives and is queued. -/
theorem LaysOthers.block {first : List Stage} {others : List (List Stage)}
    (h : LaysOthers (f.pushBlock k) k f.blocks.length (first :: others) g) :
    Lays f k [.block first others] g := by
  have hpush : (f.pushBlock k).blocks.length = f.blocks.length + 1 := by simp [pushBlock]
  have hempty : (f.pushBlock k).branchesOf f.blocks.length = [] := by
    simp [Family.branchesOf, pushBlock]
  obtain ⟨ks, hks, hfits⟩ := h.branches
  rw [hempty, List.nil_append] at hks
  have hblocks := h.keeps.blocks
  refine ⟨h.openBlocks, ?_, [.block f.blocks.length], h.queued, fun g' hh => ?_⟩
  · refine ⟨h.keeps.document, h.keeps.limit, h.keeps.members, by omega, h.keeps.queueOf, ?_⟩
    intro b hb _
    rw [h.keeps.block (by omega) (fun he => absurd (Option.some.inj he) (by omega)), pushBlock]
    exact List.getElem?_append_left hb
  · have hlater : Holds (f.pushBlock k) g g' :=
      ⟨hh.document, hh.limit, hh.queueOf, fun hb => hh.branchesOf (by omega)⟩
    obtain ⟨c, cs, rfl, hfirst, hothers⟩ := hfits g' hlater
    have hbranches : g'.branchesOf f.blocks.length = c :: cs := by
      rw [hh.branchesOf (Nat.le_refl _) (by omega), hks]
    exact ⟨_, [], rfl, ⟨_, c, cs, rfl, hbranches, hfirst, hothers⟩, rfl⟩

/-! ### The calls of a track -/

mutual

theorem lays_stage : ∀ {s : Stage} {f g : Family} {k : Nat} {j : ChainId},
    k < f.members.length → f.fluent k s.calls = some (g, j) → j = k ∧ Lays f k [s] g
  | .plain operation, f, g, k, j, hk, hf => by
    simp only [Stage.calls, fluent, call, perform] at hf
    cases hs : operation.step f.document.root f.limit with
    | error fault => simp [hs] at hf
    | ok s =>
      simp only [hs, Option.some.injEq, Prod.mk.injEq] at hf
      obtain ⟨rfl, rfl⟩ := hf
      exact ⟨rfl, lays_plain hk hs⟩
  | .block first others, f, g, k, j, hk, hf => by
    have ho := opened_pushBlock hk
    simp only [Stage.calls, fluent, call, openBlock_eq, ho.nextBranch] at hf
    obtain ⟨f', i, hfirst, hothers⟩ := fluent_append_some hf
    obtain ⟨_, hlaid⟩ := lays_track (by rw [length_branchInto]; exact Nat.lt_succ_self _) hfirst
    obtain ⟨rfl, hrest⟩ := lays_others (ho.branchInto.of_lays hlaid) hothers
    exact ⟨rfl, (hrest.cons ho hlaid).block⟩

/-- **The calls of a track append a queue that fits it, and come back to where they began.** -/
theorem lays_track : ∀ {t : List Stage} {f g : Family} {k : Nat} {j : ChainId},
    k < f.members.length → f.fluent k (trackCalls t) = some (g, j) → j = k ∧ Lays f k t g
  | [], f, g, k, j, _, hf => by
    simp only [trackCalls, fluent, Option.some.injEq, Prod.mk.injEq] at hf
    obtain ⟨rfl, rfl⟩ := hf
    exact ⟨rfl, lays_nil⟩
  | s :: t, f, g, k, j, hk, hf => by
    obtain ⟨f', i, hs, ht⟩ := fluent_append_some hf
    obtain ⟨rfl, hfirst⟩ := lays_stage hk hs
    obtain ⟨rfl, hrest⟩ := lays_track (Nat.lt_of_lt_of_le hk hfirst.keeps.members) ht
    exact ⟨rfl, hfirst.cons hk hrest⟩

theorem lays_others : ∀ {ts : List (List Stage)} {f g : Family} {k b : Nat} {i j : ChainId},
    Opened f k b → f.fluent i (othersCalls ts) = some (g, j) → j = k ∧ LaysOthers f k b ts g
  | [], f, g, k, b, i, j, ho, hf => by
    simp only [othersCalls, fluent, call, ho.closeBlock, Option.some.injEq, Prod.mk.injEq] at hf
    obtain ⟨rfl, rfl⟩ := hf
    exact ⟨rfl, laysOthers_nil ho⟩
  | t :: ts, f, g, k, b, i, j, ho, hf => by
    simp only [othersCalls, fluent, call, ho.nextBranch] at hf
    obtain ⟨f', i, ht, hts⟩ := fluent_append_some hf
    obtain ⟨_, hlaid⟩ := lays_track (by rw [length_branchInto]; exact Nat.lt_succ_self _) ht
    obtain ⟨rfl, hrest⟩ := lays_others (ho.branchInto.of_lays hlaid) hts
    exact ⟨rfl, hrest.cons ho hlaid⟩

end

/-! ### Building by strung calls -/

/-- The chain that a building call gives back is a member, so that calls can go on with it. -/
theorem Coherent.chain_of_builds (hf : f.Coherent) (hk : k < f.members.length) {c : Call}
    (hc : c.Builds)
    (hstep : ∀ operation, c = .queue operation →
      ∃ s, operation.step f.document.root f.limit = .ok s) :
    ∃ j, (f.call k c).2 = .ok (.chain j) ∧ j < (f.call k c).1.members.length := by
  have hnext : ∀ {f : Family}, f.Coherent → k < f.members.length →
      (f.nextBranch k).2 < (f.nextBranch k).1.members.length := by
    intro f hf hk
    cases ho : f.openBlocks with
    | nil =>
      simp only [Family.nextBranch, ho]
      exact hk
    | cons b rest =>
      obtain ⟨block, hb⟩ := hf.block_of_open (b := b) (by simp [ho])
      rw [nextBranch_of_open ho hb, length_branchInto]
      exact Nat.lt_succ_self _
  have hclose : (f.closeBlock k).2 < (f.closeBlock k).1.members.length := by
    cases ho : f.openBlocks with
    | nil =>
      simp only [Family.closeBlock, ho]
      exact hk
    | cons b rest =>
      obtain ⟨block, hb⟩ := hf.block_of_open (b := b) (by simp [ho])
      rw [closeBlock_of_open ho hb, Family.popBlock, length_members_queueFor]
      exact hf.owners hb
  cases c with
  | queue operation =>
    obtain ⟨s, hs⟩ := hstep operation rfl
    simp only [Family.call, perform, hs]
    exact ⟨k, rfl, by simpa using hk⟩
  | openBlock =>
    refine ⟨_, rfl, ?_⟩
    simp only [Family.call, openBlock_eq]
    exact hnext (hf.pushBlock hk) hk
  | nextBranch => exact ⟨_, rfl, hnext hf hk⟩
  | closeBlock => exact ⟨_, rfl, hclose⟩
  | verify | finish | trace | close | enter | exit => exact hc.elim

/-- Strung building calls lead somewhere, unless a step cannot even be queued. -/
theorem Coherent.exists_fluent : ∀ {calls : List Call} {f : Family} {k : Nat}, f.Coherent →
    k < f.members.length → (∀ c ∈ calls, c.Builds) →
    (∀ operation, .queue operation ∈ calls →
      ∃ s, operation.step f.document.root f.limit = .ok s) →
    ∃ g j, f.fluent k calls = some (g, j) ∧ Reached Call.Builds f g
  | [], f, k, _, _, _, _ => ⟨f, k, rfl, .start⟩
  | c :: calls, f, k, hf, hk, hbuilds, hsteps => by
    have hc := hbuilds c List.mem_cons_self
    obtain ⟨j, hreply, hj⟩ := hf.chain_of_builds hk hc fun operation he =>
      hsteps operation (he ▸ List.mem_cons_self)
    have hbuilt := hf.built.call (k := k) hc
    obtain ⟨g, i, hg, hreached⟩ := (hf.call hk hc).exists_fluent hj
      (fun c hc => hbuilds c (List.mem_cons_of_mem _ hc)) (fun operation ho => by
        rw [hbuilt.document_eq, hbuilt.limit_eq]
        exact hsteps operation (List.mem_cons_of_mem _ ho))
    have hcall : f.call k c = ((f.call k c).1, .ok (.chain j)) := by rw [← hreply]
    refine ⟨g, i, ?_, .trans (.call .start hk hc) hreached⟩
    rw [fluent, hcall]
    exact hg

/-- **A chain of strung calls means its tree.** Well bracketed calls spell exactly one tree and
come back to the origin, and a verification then does what the tree means: it leaves the
candidates and the records, nested in each other as blocks are, or is interrupted by the same
fault. -/
theorem fluent_means_tree {document : Document} {calls : List Call}
    (hv : document.problem = none) (hw : WellBracketed calls) (description : String) (limit : Int)
    (raising : Bool)
    (hsteps : ∀ operation, .queue operation ∈ calls →
      ∃ s, operation.step document.root limit = .ok s) :
    ∃ f, (start document description limit raising).fluent 0 calls = some (f, 0) ∧
      ∃ t, trackCalls t = calls ∧ (∀ t', trackCalls t' = calls → t' = t) ∧
        match evalTrack document.root limit [document.root] t with
        | .ok (candidates, records) => ∃ m, (f.call 0 .verify).1.member? 0 = some m ∧
            m.candidates = candidates ∧ m.records = records
        | .error fault => (f.call 0 .verify).2 = .error fault := by
  have hstart := coherent_start document description limit raising
  have hbuilds : ∀ c ∈ calls, c.Builds := by
    intro c hc
    rcases hw.builds c hc with ⟨_, rfl⟩ | rfl | rfl | rfl <;> trivial
  obtain ⟨f, k, hf, hreached⟩ := hstart.exists_fluent (k := 0) hstart.length_pos hbuilds hsteps
  obtain ⟨t, rfl⟩ := exists_track hw
  obtain ⟨rfl, hlays⟩ := lays_track hstart.length_pos hf
  refine ⟨f, hf, t, rfl, fun t' ht => trackCalls_injective ht, ?_⟩
  have hcoherent := hreached.coherent hstart
  have hbuilt := hreached.built hstart
  have hfin : f.finalized = false := hbuilt.finalized_eq
  have hdoc : f.document.problem = none := by rw [hbuilt.document_eq]; exact hv
  have hcandidates : f.startCandidates = [document.root] :=
    hbuilt.startCandidates_eq.trans (startCandidates_start hv ..)
  obtain ⟨queue, hqueue, hfits⟩ := hlays.queued
  have hall : TrackFits f t (f.queueOf 0) := by
    rw [hqueue]
    exact hfits f (.self hlays.keeps)
  have hresult : (f.run 0 [document.root]).result
      = evalTrack document.root limit [document.root] t := by
    rw [hcoherent.result_run hcoherent.length_pos, hcoherent.runQueue_of_fits hall,
      hbuilt.document_eq, hbuilt.limit_eq]
    rfl
  rw [← hresult, Progress.result, ← hcandidates]
  cases hfault : (f.run 0 f.startCandidates).fault with
  | some fault =>
    simp only [call, verify, conclude_of_fault hfin hdoc hfault]
    rfl
  | none =>
    obtain ⟨m, hm, hleft⟩ := hcoherent.member?_ran f.startCandidates
    exact ⟨m, (conclude_member? hfin hdoc hfault 0).trans hm, hleft⟩

/-- A block of which the second alternative passes, and a step after it that fails. -/
theorem fluent_means_tree_of_second_alternative :
    ∃ calls f m, calls = [.openBlock, .queue (.isKind .object), .nextBranch,
        .queue (.isKind .null), .closeBlock, .queue (.isKind .array)] ∧
      WellBracketed calls ∧
      (∀ operation, .queue operation ∈ calls → ∃ s, operation.step .null 100 = .ok s) ∧
      (start (.ofValue .null) "" 100 false).fluent 0 calls = some (f, 0) ∧
      (f.call 0 .verify).1.member? 0 = some m ∧ m.records.map Record.passed = [true, false] := by
  let calls : List Call := [.openBlock, .queue (.isKind .object), .nextBranch,
    .queue (.isKind .null), .closeBlock, .queue (.isKind .array)]
  have hv : (Document.ofValue .null).problem = none := rfl
  have hw : WellBracketed calls := rfl
  have hsteps : ∀ operation, .queue operation ∈ calls →
      ∃ s, operation.step .null 100 = .ok s := by
    intro operation ho
    simp only [calls, List.mem_cons, Call.queue.injEq, reduceCtorEq, false_or, List.not_mem_nil,
      or_false] at ho
    rcases ho with rfl | rfl | rfl <;> exact ⟨_, rfl⟩
  obtain ⟨f, hf, t, _, hunique, hmeans⟩ := fluent_means_tree hv hw "" 100 false hsteps
  obtain rfl : [.block [.plain (.isKind .object)] [[.plain (.isKind .null)]],
    .plain (.isKind .array)] = t := hunique _ rfl
  obtain ⟨m, hm, _, hrecords⟩ := hmeans
  exact ⟨calls, f, m, rfl, hw, hsteps, hf, hm, by rw [hrecords]; rfl⟩

end Family

end Attest

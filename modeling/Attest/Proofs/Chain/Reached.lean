import Attest.Chain.Call

/-!
# Families that calls lead to

A user may hold on to any member of a family and make the next call on it, so what is proved of
families is proved of all those that calls on arbitrary members lead to. This file says which
these are, and what the calls that build queues do to a family.

Opening a block is split in two: a block without alternatives is pushed, and then the first
alternative is forked like any later one. Every argument about alternatives is thereby made once.

## Main definitions

* `Call.Builds`, `Call.Finalizes` — the calls that fill queues, and those that run them
* `Family.Reached` — the families that calls of a sort lead to
* `Family.pushBlock`, `Family.branchInto`, `Family.popBlock` — what blocks do to a family

## Main results

* `Family.openBlock_eq`, `nextBranch_of_open`, `closeBlock_of_open` — block calls in these terms
* `Family.call_of_builds` — a building call is one of five changes
-/

namespace Attest

/-- The calls that queue a step, or open, continue or close a block. -/
def Call.Builds : Call → Prop
  | .queue _ | .openBlock | .nextBranch | .closeBlock => True
  | _ => False

/-- The calls that run what was queued and report the outcome. -/
def Call.Finalizes : Call → Prop
  | .verify | .finish .. => True
  | _ => False

/-! ### Changing one element of a list -/

section Modify

variable {α β : Type}

theorem modify_length_append (l : List α) (a : α) (change : α → α) :
    (l ++ [a]).modify l.length change = l ++ [change a] := by
  simpa [List.modify] using List.modifyTailIdx_add (List.modifyHead change) 0 l [a]

/-- If a change puts something before what an element contributes, changing one element puts it
before what the list contributes. -/
theorem perm_flatMap_modify {contribution : α → List β} {change : α → α} {added : List β}
    (h : ∀ a, (contribution (change a)).Perm (added ++ contribution a)) :
    ∀ {l : List α} {k : Nat}, k < l.length →
      ((l.modify k change).flatMap contribution).Perm (added ++ l.flatMap contribution)
  | a :: l, 0, _ => by
    simpa using (h a).append_right (l.flatMap contribution)
  | a :: l, k + 1, hk => by
    have ih := perm_flatMap_modify h (l := l) (k := k) (by simpa using hk)
    simp only [List.modify_succ_cons, List.flatMap_cons]
    exact (ih.append_left _).trans (List.perm_append_comm_assoc ..)

end Modify

namespace Family

/-- The families that calls of a sort lead to, made on any members in any order. A call that was
interrupted is one of them: what it did before stays. -/
inductive Reached (sort : Call → Prop) (f : Family) : Family → Prop where
  | start : Reached sort f f
  | call {g : Family} {k : ChainId} {c : Call} :
      Reached sort f g → k < g.members.length → sort c → Reached sort f (g.call k c).1

theorem Reached.mono {sort sort' : Call → Prop} {f g : Family} (h : Reached sort f g)
    (hs : ∀ c, sort c → sort' c) : Reached sort' f g := by
  induction h with
  | start => exact .start
  | call _ hk hc ih => exact .call ih hk (hs _ hc)

theorem Reached.trans {sort : Call → Prop} {f g h : Family} (hfg : Reached sort f g)
    (hgh : Reached sort g h) : Reached sort f h := by
  induction hgh with
  | start => exact hfg
  | call _ hk hc ih => exact .call ih hk hc

/-! ### Blocks -/

/-- Put a block without alternatives on the stack. -/
def pushBlock (f : Family) (k : ChainId) : Family :=
  { f with
    blocks := f.blocks ++ [⟨k, []⟩]
    openBlocks := f.blocks.length :: f.openBlocks }

/-- Fork an alternative of a block from the chain that opened it. -/
def branchInto (f : Family) (block : Nat) (owner : ChainId) : Family :=
  { f.branchOff owner with
    blocks := f.blocks.modify block fun b =>
      { b with branches := b.branches ++ [f.members.length] } }

/-- Take the innermost block off the stack and queue it on its owner. -/
def popBlock (f : Family) (block : Nat) (owner : ChainId) : Family :=
  { f with openBlocks := f.openBlocks.tail }.queueFor owner (.block block)

theorem openBlock_eq (f : Family) (k : ChainId) : f.openBlock k = (f.pushBlock k).nextBranch k := by
  simp [openBlock, nextBranch, pushBlock, branchOff, member?, modify_length_append]

theorem nextBranch_of_open {f : Family} {b : Nat} {rest : List Nat} {block : Block}
    (ho : f.openBlocks = b :: rest) (hb : f.blocks[b]? = some block) (k : ChainId) :
    f.nextBranch k = (f.branchInto b block.owner, f.members.length) := by
  simp [nextBranch, branchInto, ho, hb]

theorem closeBlock_of_open {f : Family} {b : Nat} {rest : List Nat} {block : Block}
    (ho : f.openBlocks = b :: rest) (hb : f.blocks[b]? = some block) (k : ChainId) :
    f.closeBlock k = (f.popBlock b block.owner, block.owner) := by
  simp [closeBlock, popBlock, ho, hb]

/-- What a building call can do to a family: nothing, note a misuse, queue a step, or fork or
close a block. -/
theorem call_of_builds {f : Family} {k : ChainId} {c : Call} (hc : c.Builds) :
    (f.call k c).1 = f ∨ (∃ s, (f.call k c).1 = f.queueFor k (.step s)) ∨
      (f.call k c).1 = (f.openBlock k).1 ∨ (f.call k c).1 = (f.nextBranch k).1 ∨
      (f.call k c).1 = (f.closeBlock k).1 := by
  cases c with
  | queue operation =>
    simp only [call, perform]
    cases operation.step f.document.root f.limit with
    | error fault => exact .inl rfl
    | ok step => exact .inr (.inl ⟨step, rfl⟩)
  | openBlock => exact .inr (.inr (.inl rfl))
  | nextBranch => exact .inr (.inr (.inr (.inl rfl)))
  | closeBlock => exact .inr (.inr (.inr (.inr rfl)))
  | verify | finish | trace | close | enter | exit => exact hc.elim

end Family

end Attest

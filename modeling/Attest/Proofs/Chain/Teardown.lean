import Attest.Chain.Teardown
import Attest.Proofs.Chain.Settlement
import Mathlib.Data.List.Forall2

/-!
# Leaving a scope

A scope hands out chains whose sink raises, and closes all of them at its end. In between anything
may have been done to them, in any order and through any of their members. A close that raises is
not the end of the loop: what it raised is kept, and the next family is closed. So the scope leaves
every family finalized, and it fails with what was raised, which is one text for each family that no
call had settled.

## Main definitions

* `Making`, `Made` — what chains are made with, and the families of a scope after any calls
* `Making.LeadsTo` — what is known of a family after any calls
* `Family.ClosedTo` — what closing leaves of a family

## Main results

* `Made.leadsTo` — the families of a scope are those that it made, in their order
* `closeEvery_families`, `closeEvery_failures` — what closing one after the other does to each
* `teardown_misses_none` — the end of a scope
-/

namespace Attest

/-- What a chain is made with. -/
structure Making where
  document : Document
  description : String
  limit : Int

/-- The chain that is made. Its sink raises failed outcomes. -/
def Making.start (m : Making) : Family := Family.start m.document m.description m.limit true

/-- The families of a scope, in the order in which they were made, after any calls on any of their
members. A call that was interrupted is one of them: what it did before stays. -/
inductive Made : List Making → List Family → Prop where
  | nothing : Made [] []
  | make {makings : List Making} {families : List Family} (m : Making) :
      Made makings families → Made (makings ++ [m]) (families ++ [m.start])
  | call {makings : List Making} {families : List Family} {i : Nat} {f : Family} {k : ChainId}
      (c : Call) : Made makings families → families[i]? = some f → k < f.members.length →
        Made makings (families.set i (f.call k c).1)

/-- What any calls come to: the description is the one given and the sink still raises, and the
family is not finalized iff no call settled it. -/
structure Making.LeadsTo (m : Making) (f : Family) : Prop where
  description : f.description = m.description
  raising : f.raising = true
  unsettled_iff : f.finalized = false ↔ Family.Reached (fun c => ¬ c.Settles) m.start f

namespace Family

variable {f g : Family} {k : ChainId} {c : Call}

/-- What closing leaves of a family: it is finalized. If it was finalized before, nothing is
changed, and otherwise it reported that it was not. -/
structure ClosedTo (f g : Family) : Prop where
  finalized : g.finalized = true
  kept : f.finalized = true → g = f
  reported : f.finalized = false → g = { f with finalized := true, reported := [f.unfinished] }

/-! ### What calls leave alone -/

/-- No call changes what a family is described as, or its sink. -/
theorem call_keeps (hk : k < f.members.length) (c : Call) :
    (f.call k c).1.description = f.description ∧ (f.call k c).1.raising = f.raising := by
  by_cases hc : c.Settles
  · rcases call_of_settles hc f k with ⟨-, hcall⟩ | ⟨r, hr, hcall⟩ <;> rw [hcall]
    · rw [close]
      split <;> exact ⟨rfl, rfl⟩
    · obtain ⟨g, rfl | rfl, hshared⟩ := conclude_shared r <;> rw [hshared, readied_shared hr]
      · exact ⟨rfl, rfl⟩
      · rw [ran_eq]
        exact ⟨rfl, rfl⟩
  · rcases call_of_not_settles hc f k with hb | he
    · rw [((built_self (Nat.zero_lt_of_lt hk)).call (k := k) hb).shared]
      exact ⟨rfl, rfl⟩
    · rw [he]
      exact ⟨rfl, rfl⟩

theorem Reached.keeps {sort : Call → Prop} (h : Reached sort f g) :
    g.description = f.description ∧ g.raising = f.raising := by
  induction h with
  | start => exact ⟨rfl, rfl⟩
  | call _ hk _ ih => exact ⟨(call_keeps hk _).1.trans ih.1, (call_keeps hk _).2.trans ih.2⟩

/-! ### Closing -/

theorem close_of_finalized (hf : f.finalized = true) : f.close = (f, .ok ()) := by
  simp [close, hf]

/-- If nothing was settled, a close raises what it reports. -/
theorem close_of_unsettled (hf : f.finalized = false) (hr : f.raising = true) :
    f.close = ({ f with finalized := true, reported := f.reported ++ [f.unfinished] },
      .error (.failedOutcome f.unfinished)) := by
  simp [close, hf, report, hr, unfinished]

/-- An unfinished family has nothing to show but the reason. -/
theorem text_unfinished (f : Family) : f.unfinished.text = "❌ FAIL: " ++ f.description ++
    "\n   Reason: assertion chain was not finalized\n   Candidates (0):" := by
  simp [unfinished, Outcome.text, notFinalized, String.append_assoc]
  rfl

end Family

open Family

theorem Making.LeadsTo.of_reached {m : Making} {f : Family}
    (h : Reached (fun _ => True) m.start f) : m.LeadsTo f where
  description := h.keeps.1
  raising := h.keeps.2
  unsettled_iff := by
    refine ⟨fun hf => ?_, fun hr => (fresh_of_reached hr).1⟩
    rcases h.first_settling with hr | ⟨g, k, c, hr, hk, hc, hg⟩
    · exact hr
    · have hlate := (hg.built_of_settles (fresh_of_reached hr).1 hk hc).2
      exact absurd (hlate.symm.trans hf) Bool.true_eq_false.mp

/-- A family that no call settled reported nothing yet. -/
theorem Making.LeadsTo.closed {m : Making} {f : Family} (h : m.LeadsTo f) :
    f.ClosedTo f.close.1 := by
  cases hf : f.finalized with
  | true =>
    rw [close_of_finalized hf]
    exact ⟨hf, fun _ => rfl, fun hne => absurd (hf.symm.trans hne) (by decide)⟩
  | false =>
    have hnone : f.reported = [] := (fresh_of_reached (h.unsettled_iff.mp hf)).2.1
    rw [close_of_unsettled hf h.raising, hnone]
    exact ⟨rfl, fun hne => absurd (hf.symm.trans hne) (by decide), fun _ => rfl⟩

/-! ### The families of a scope -/

theorem forall₂_concat {α β : Type} {R : α → β → Prop} {as : List α} {bs : List β} {a : α} {b : β}
    (h : List.Forall₂ R as bs) (hab : R a b) : List.Forall₂ R (as ++ [a]) (bs ++ [b]) :=
  List.rel_append h (.cons hab .nil)

theorem forall₂_set {α β : Type} {R : α → β → Prop} {as : List α} {bs : List β} {i : Nat}
    {old new : β} (h : List.Forall₂ R as bs) (hi : bs[i]? = some old)
    (hnew : ∀ a, R a old → R a new) : List.Forall₂ R as (bs.set i new) := by
  induction h generalizing i with
  | nil => exact .nil
  | cons hab hrest ih =>
    cases i with
    | zero =>
      cases hi
      exact .cons (hnew _ hab) hrest
    | succ i => exact .cons hab (ih hi)

theorem exists_of_forall₂ {α β : Type} {R : α → β → Prop} {as : List α} {bs : List β} {b : β}
    (h : List.Forall₂ R as bs) (hb : b ∈ bs) : ∃ a ∈ as, R a b := by
  obtain ⟨i, hi, rfl⟩ := List.mem_iff_getElem.mp hb
  have hi' : i < as.length := h.length_eq ▸ hi
  exact ⟨as[i], List.getElem_mem hi', h.get hi' hi⟩

/-- **The families of a scope** are those that it made, in their order. -/
theorem Made.leadsTo {makings : List Making} {families : List Family}
    (h : Made makings families) : List.Forall₂ Making.LeadsTo makings families := by
  have hreached : List.Forall₂ (fun m f => Reached (fun _ => True) m.start f) makings families := by
    induction h with
    | nothing => exact .nil
    | make m _ ih => exact forall₂_concat ih .start
    | call c _ hi hk ih => exact forall₂_set ih hi fun _ hm => .call hm hk trivial
  exact hreached.imp fun _ _ => Making.LeadsTo.of_reached

theorem closeEvery_cons (f : Family) (rest : List Family) :
    closeEvery (f :: rest) = (f.close.1 :: (closeEvery rest).1,
      match f.close.2 with
      | .error (.failedOutcome outcome) => outcome.text :: (closeEvery rest).2
      | _ => (closeEvery rest).2) := rfl

/-- Every family is closed, whatever an earlier close raised. -/
theorem closeEvery_families (families : List Family) :
    (closeEvery families).1 = families.map fun f => f.close.1 := by
  induction families with
  | nil => rfl
  | cons f rest ih => rw [closeEvery_cons, List.map_cons, ih]

/-- What was raised is kept, in order. -/
theorem closeEvery_failures {families : List Family} (h : ∀ f ∈ families, f.raising = true) :
    (closeEvery families).2
      = (families.filter fun f => !f.finalized).map fun f => f.unfinished.text := by
  induction families with
  | nil => rfl
  | cons f rest ih =>
    obtain ⟨hr, hrest⟩ := List.forall_mem_cons.mp h
    rw [closeEvery_cons, ih hrest]
    cases hf : f.finalized with
    | true => rw [close_of_finalized hf, List.filter_cons_of_neg (by simp [hf])]
    | false =>
      rw [close_of_unsettled hf hr, List.filter_cons_of_pos (by simp [hf]), List.map_cons]

theorem teardown_of_finalized {families : List Family}
    (h : ∀ f ∈ families, f.finalized = true) : teardown families = none := by
  have hnone : (closeEvery families).2 = [] := by
    induction families with
    | nil => rfl
    | cons f rest ih =>
      obtain ⟨hf, hrest⟩ := List.forall_mem_cons.mp h
      rw [closeEvery_cons, close_of_finalized hf, ih hrest]
  rw [teardown, hnone]
  rfl

/-- The end of a scope fails iff a family is not finalized. -/
theorem teardown_fails_iff {families : List Family} (h : ∀ f ∈ families, f.raising = true) :
    (∃ message, teardown families = some message) ↔ ∃ f ∈ families, f.finalized = false := by
  rw [← Option.isSome_iff_exists, teardown, closeEvery_failures h]
  simp

/-- It fails with the text of each family that is not finalized. -/
theorem teardown_text {families : List Family} (h : ∀ f ∈ families, f.raising = true)
    {message : String} (hfail : teardown families = some message) :
    message = "\n\n".intercalate ((families.filter fun f => !f.finalized).map fun f =>
      f.unfinished.text) := by
  rw [teardown, closeEvery_failures h] at hfail
  split at hfail
  · cases hfail
  · exact (Option.some.inj hfail).symm

/-- **The end of a scope** misses no chain. Whatever was done to the chains of a scope before, the
end of it leaves every one of them finalized, those that were already as they are. It fails iff
there is a chain that no call settled, and then with one text for each such chain, in the order in
which they were made. At a second end there is nothing left to fail with. -/
theorem teardown_misses_none {makings : List Making} {families : List Family}
    (h : Made makings families) :
    List.Forall₂ Making.LeadsTo makings families ∧
    List.Forall₂ Family.ClosedTo families (closeEvery families).1 ∧
    ((∃ message, teardown families = some message) ↔ ∃ f ∈ families, f.finalized = false) ∧
    (∀ message, teardown families = some message →
      message = "\n\n".intercalate ((families.filter fun f => !f.finalized).map fun f =>
        "❌ FAIL: " ++ f.description ++
          "\n   Reason: assertion chain was not finalized\n   Candidates (0):")) ∧
    teardown (closeEvery families).1 = none := by
  have hleads := h.leadsTo
  have hraising : ∀ f ∈ families, f.raising = true := by
    intro f hf
    obtain ⟨_, -, hm⟩ := exists_of_forall₂ hleads hf
    exact hm.raising
  have hclosed : ∀ f ∈ families, f.ClosedTo f.close.1 := by
    intro f hf
    obtain ⟨_, -, hm⟩ := exists_of_forall₂ hleads hf
    exact hm.closed
  refine ⟨hleads, ?_, teardown_fails_iff hraising, ?_, ?_⟩
  · rw [closeEvery_families, List.forall₂_map_right_iff, List.forall₂_same]
    exact hclosed
  · intro message hfail
    simp only [teardown_text hraising hfail, text_unfinished]
  · have hfinalized : ∀ f ∈ (closeEvery families).1, f.finalized = true := by
      rw [closeEvery_families, List.forall_mem_map]
      exact fun f hf => (hclosed f hf).finalized
    exact teardown_of_finalized hfinalized

/-- Three chains: one that was verified, one with an open block, and one left as it was. -/
theorem teardown_misses_none_of_three :
    let making (description : String) : Making := ⟨.ofValue (.bool true), description, 100⟩
    ∃ families, Made [making "a", making "b", making "c"] families ∧
      teardown families = some ("❌ FAIL: b\n   Reason: assertion chain was not finalized\n" ++
        "   Candidates (0):\n\n❌ FAIL: c\n   Reason: assertion chain was not finalized\n" ++
        "   Candidates (0):") := by
  intro making
  have hmade : Made [making "a", making "b", making "c"]
      [(making "a").start, (making "b").start, (making "c").start] :=
    ((Made.nothing.make (making "a")).make (making "b")).make (making "c")
  have hcalls := (hmade.call (i := 0) (k := 0) .verify rfl (by decide)).call
    (i := 1) (k := 0) .openBlock rfl (by decide)
  obtain ⟨-, -, hfails, htext, -⟩ := teardown_misses_none hcalls
  obtain ⟨message, hmessage⟩ := hfails.mpr ⟨_, List.mem_cons_of_mem _ (.head _), rfl⟩
  refine ⟨_, hcalls, hmessage.trans (congrArg some ?_)⟩
  rw [htext message hmessage]
  rfl

end Attest

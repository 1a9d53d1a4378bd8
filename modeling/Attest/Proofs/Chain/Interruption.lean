import Attest.Proofs.Chain.Fitting
import Attest.Proofs.Step.Operation

/-!
# What interrupts a run

A run goes through queues and through the queues of alternatives, and everything that it does in
between, such as joining candidates, goes well on candidates that can be shown. So if only plain
operations were queued, a run is interrupted iff it comes to one that is, on the candidates that
the run has by then.

## Main definitions

* `Family.Orderly` — only plain operations were queued
* `Family.Interrupted` — a run of a queue comes to an operation that is interrupted

## Main results

* `Family.Linked.run_tame` — a run is interrupted iff it comes to such an operation
-/

namespace Attest

/-! ### Joining candidates -/

theorem sameCandidate_ok {a b : Value} (ha : a.Shown) (hb : b.Shown) :
    Succeeds (a.sameCandidate b) := by
  unfold Value.sameCandidate
  split
  · exact succeeds_ok _
  · exact ha.equals_ok hb
  · exact succeeds_ok _

theorem seenBefore_ok {v : Value} {seen : List Value} (hv : v.Shown) (hs : AllShown seen) :
    Succeeds (seenBefore v seen) := by
  induction seen with
  | nil => exact succeeds_ok _
  | cons other rest ih =>
    obtain ⟨hother, hrest⟩ := List.forall_mem_cons.mp hs
    refine (sameCandidate_ok hv hother).bind fun same _ => ?_
    split
    · exact succeeds_ok _
    · exact ih hrest

theorem uniteFrom_ok {vs seen : List Value} (hvs : AllShown vs) (hs : AllShown seen) :
    ∃ merged, uniteFrom seen vs = .ok merged ∧ AllShown merged := by
  induction vs generalizing seen with
  | nil => exact ⟨seen, rfl, hs⟩
  | cons v rest ih =>
    obtain ⟨hv, hrest⟩ := List.forall_mem_cons.mp hvs
    obtain ⟨known, hknown⟩ := seenBefore_ok hv hs
    rw [uniteFrom, hknown]
    cases known with
    | true => exact ih hrest hs
    | false => exact ih hrest (List.forall_mem_append.mpr ⟨hs, List.forall_mem_singleton.mpr hv⟩)

theorem unite_ok {groups : List (List Value)} (h : AllShown groups.flatten) :
    ∃ merged, unite groups = .ok merged ∧ AllShown merged :=
  uniteFrom_ok h fun _ hv => absurd hv List.not_mem_nil

/-! ### Blocks -/

/-- What the alternatives of a block left, unless they were interrupted. -/
def BlockProgress.result (p : BlockProgress) : Except Fault (List (List Value)) :=
  match p.fault with
  | some fault => .error fault
  | none => .ok p.survivors

section Block

variable {run : Evaluator} {vs : List Value} {stops : ChainId → Prop}

theorem runBranches_tame : ∀ {ks : List ChainId},
    (∀ c ∈ ks, Tame (run c vs).result Prod.fst (stops c)) →
      Tame (runBranches run vs ks).result List.flatten (∃ c ∈ ks, stops c)
  | [], _ => (tame_ok (by simp [AllShown, runBranches])).congr (by simp)
  | k :: rest, h => by
    obtain ⟨hk, hrest⟩ := List.forall_mem_cons.mp h
    have hothers := runBranches_tame hrest
    unfold Progress.result at hk
    rw [runBranches]
    cases hf : (run k vs).fault with
    | some fault =>
      rw [hf] at hk
      exact hk.error.congr (by simp [hk.stopped])
    | none =>
      rw [hf] at hk
      have hruns : ¬ stops k := hk.runs.mp (succeeds_ok _)
      have hshown := hk.shown _ rfl
      refine Tame.congr ?_ (by simp [hruns] : (∃ c ∈ rest, stops c) ↔ ∃ c ∈ k :: rest, stops c)
      unfold BlockProgress.result at hothers ⊢
      dsimp only
      cases hothersFault : (runBranches run vs rest).fault with
      | some fault =>
        rw [hothersFault] at hothers
        exact hothers.error
      | none =>
        rw [hothersFault] at hothers
        refine hothers.ok ?_
        split
        · exact List.forall_mem_append.mpr ⟨hshown, hothers.shown _ rfl⟩
        · exact hothers.shown _ rfl

theorem runBlock_tame {ks : List ChainId} (hvs : AllShown vs)
    (h : ∀ c ∈ ks, Tame (run c vs).result Prod.fst (stops c)) :
    Tame (runBlock run vs ks).1 (fun r => r.1.candidates) (∃ c ∈ ks, stops c) := by
  have hbranches := runBranches_tame h
  unfold BlockProgress.result at hbranches
  simp only [runBlock]
  cases hf : (runBranches run vs ks).fault with
  | some fault =>
    rw [hf] at hbranches
    exact hbranches.error
  | none =>
    rw [hf] at hbranches
    dsimp only
    split
    · exact hbranches.ok hvs
    · obtain ⟨merged, hmerged, hshown⟩ := unite_ok (hbranches.shown _ rfl)
      rw [hmerged]
      exact hbranches.ok hshown

end Block

namespace Family

/-! ### Runs -/

/-- Only plain operations were queued. -/
def Orderly (queries : QueryEngine) (f : Family) : Prop :=
  ∀ k s, .step s ∈ f.queueOf k →
    ∃ o : Operation, o.Plain queries ∧ o.step f.document.root f.limit = .ok s

/-- A run of the queue on the candidates comes to an operation that is interrupted. -/
inductive Interrupted (queries : QueryEngine) (f : Family) : List Entry → List Value → Prop where
  /-- The next step is that of an operation which is interrupted. -/
  | now {o : Operation} {s : Step} {rest : List Entry} {vs : List Value} : o.Plain queries →
      o.step f.document.root f.limit = .ok s → o.Interrupts f.document.root vs →
        Interrupted queries f (.step s :: rest) vs
  /-- An alternative of the next block comes to one. -/
  | inside {b : Nat} {c : ChainId} {rest : List Entry} {vs : List Value} : c ∈ f.branchesOf b →
      Interrupted queries f (f.queueOf c) vs → Interrupted queries f (.block b :: rest) vs
  /-- What comes after the next entry does. -/
  | later {entry : Entry} {rest : List Entry} {vs : List Value} {r : Ran × Record} :
      (runEntry f.run f.branchesOf vs entry).1 = .ok r →
      Interrupted queries f rest r.1.candidates → Interrupted queries f (entry :: rest) vs

variable {f : Family} {queries : QueryEngine}

section Queue

variable (hq : queries.Documented) (hr : f.document.root.Shown)

include hq hr

theorem runEntry_tame {entry : Entry} {vs : List Value} (hvs : AllShown vs)
    (hplain : ∀ s, entry = .step s →
      ∃ o : Operation, o.Plain queries ∧ o.step f.document.root f.limit = .ok s)
    (hbelow : ∀ b, entry = .block b → ∀ c ∈ f.branchesOf b,
      Tame (f.run c vs).result Prod.fst (f.Interrupted queries (f.queueOf c) vs)) :
    Tame (runEntry f.run f.branchesOf vs entry).1 (fun r => r.1.candidates)
      (f.Interrupted queries [entry] vs) := by
  cases entry with
  | step s =>
    obtain ⟨o, ho, hs⟩ := hplain s rfl
    have hstep : Tame (runEntry f.run f.branchesOf vs (.step s)).1 (fun r => r.1.candidates)
        (o.Interrupts f.document.root vs) := (ho.behaves hq hr hs vs hvs).map fun _ => rfl
    refine hstep.congr ⟨.now ho hs, fun h => ?_⟩
    cases h with
    | now ho' hs' h =>
      have hstop : ¬ Succeeds (s.run vs) := fun hrun => (ho'.behaves hq hr hs' vs hvs).runs.mp hrun h
      exact Classical.byContradiction fun hn => hstop ((ho.behaves hq hr hs vs hvs).runs.mpr hn)
    | later _ h => cases h
  | block b =>
    have hblock : Tame (runEntry f.run f.branchesOf vs (.block b)).1 (fun r => r.1.candidates)
        (∃ c ∈ f.branchesOf b, f.Interrupted queries (f.queueOf c) vs) :=
      (runBlock_tame hvs (hbelow b rfl)).map fun _ => rfl
    refine hblock.congr ⟨?_, fun h => ?_⟩
    · rintro ⟨c, hc, h⟩
      exact .inside hc h
    · cases h with
      | inside hc h => exact ⟨_, hc, h⟩
      | later _ h => cases h

theorem runQueue_tame : ∀ {queue : List Entry} {vs : List Value}, AllShown vs →
    (∀ s, .step s ∈ queue →
      ∃ o : Operation, o.Plain queries ∧ o.step f.document.root f.limit = .ok s) →
    (∀ b, .block b ∈ queue → ∀ c ∈ f.branchesOf b, ∀ ws, AllShown ws →
      Tame (f.run c ws).result Prod.fst (f.Interrupted queries (f.queueOf c) ws)) →
    Tame (runQueue f.run f.branchesOf queue vs).result Prod.fst (f.Interrupted queries queue vs)
  | [], vs, hvs, _, _ => (tame_ok hvs).congr ⟨False.elim, fun h => by cases h⟩
  | entry :: rest, vs, hvs, hplain, hbelow => by
    have hentry : Tame (runEntry f.run f.branchesOf vs entry).1 (fun r => r.1.candidates)
        (f.Interrupted queries [entry] vs) := runEntry_tame hq hr hvs
      (fun s hs => hplain s (hs ▸ List.mem_cons_self))
      (fun b hb c hc => hbelow b (hb ▸ List.mem_cons_self) c hc vs hvs)
    have hrest : ∀ ws, AllShown ws → Tame (runQueue f.run f.branchesOf rest ws).result Prod.fst
        (f.Interrupted queries rest ws) := fun ws hws => runQueue_tame hws
      (fun s hs => hplain s (List.mem_cons_of_mem _ hs))
      (fun b hb => hbelow b (List.mem_cons_of_mem _ hb))
    rw [result_runQueue_cons]
    refine Tame.congr
      (hentry.bind ?_ : Tame _ _ (_ ∨ ∃ r, _ ∧ f.Interrupted queries rest r.1.candidates)) ?_
    · rintro ⟨ran, record⟩ hran
      have hlast := hrest ran.candidates hran
      dsimp only
      cases hresult : (runQueue f.run f.branchesOf rest ran.candidates).result with
      | error fault =>
        rw [hresult] at hlast
        exact hlast.error
      | ok left =>
        rw [hresult] at hlast
        exact hlast.ok (hlast.shown left rfl)
    · constructor
      · rintro (h | ⟨r, hr, h⟩)
        · cases h with
          | now ho hs h => exact .now ho hs h
          | inside hc h => exact .inside hc h
          | later _ h => cases h
        · exact .later hr h
      · intro h
        cases h with
        | now ho hs h => exact .inl (.now ho hs h)
        | inside hc h => exact .inl (.inside hc h)
        | later hr h => exact .inr ⟨_, hr, h⟩

end Queue

/-- **A run is interrupted iff it comes to an operation that is,** and leaves candidates that can
be shown. -/
theorem Linked.run_tame (h : f.Linked) (hq : queries.Documented) (ho : f.Orderly queries)
    (hr : f.document.root.Shown) {k : Nat} (hk : k < f.members.length) {vs : List Value}
    (hvs : AllShown vs) :
    Tame (f.run k vs).result Prod.fst (f.Interrupted queries (f.queueOf k) vs) := by
  induction hn : f.members.length - k using Nat.strongRecOn generalizing k vs with
  | ind n ih =>
    rw [h.result_run hk]
    refine runQueue_tame hq hr hvs (ho k) fun b hb c hc ws hws => ?_
    obtain ⟨hlt, hc⟩ := h.lt_of_child (mem_children.mpr ⟨b, hb, hc⟩)
    exact ih _ (by omega) hc hws rfl

end Family

end Attest

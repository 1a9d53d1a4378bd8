import Attest.Proofs.Chain.Bracket
import Attest.Proofs.Chain.Conclusion

/-!
# Queues that hold a track

A family keeps a tree in pieces: alternatives are members of their own, and a block is found by
number in the queue of its owner. This file says when a queue holds the stages of a track,
followed through blocks to the queues of alternatives, and that such a queue runs as the track
means.

## Main definitions

* `TrackFits` — a queue holds the stages of a track
* `Progress.result` — what a run left, unless it was interrupted

## Main results

* `Family.Linked.runQueue_of_fits` — a queue that fits a track runs as it means
-/

namespace Attest

section Fits

variable (f : Family)

mutual

/-- An entry is the step of a stage, or the block of its alternatives. -/
def Stage.Fits : Stage → Entry → Prop
  | .plain operation, entry =>
    ∃ s, operation.step f.document.root f.limit = .ok s ∧ entry = .step s
  | .block first others, entry =>
    ∃ b c cs, entry = .block b ∧ f.branchesOf b = c :: cs ∧ TrackFits first (f.queueOf c) ∧
      EachFits others cs

/-- A queue holds the stages of a track, in order. -/
def TrackFits : List Stage → List Entry → Prop
  | [], queue => queue = []
  | s :: rest, queue => ∃ entry after, queue = entry :: after ∧ s.Fits entry ∧ TrackFits rest after

/-- The queues of members hold the stages of tracks. -/
def EachFits : List (List Stage) → List ChainId → Prop
  | [], ks => ks = []
  | t :: rest, ks => ∃ c cs, ks = c :: cs ∧ TrackFits t (f.queueOf c) ∧ EachFits rest cs

end

end Fits

/-! ### A queue that fits runs as its track means -/

/-- What a run left, unless it was interrupted. -/
def Progress.result (p : Progress) : Except Fault Left :=
  match p.fault with
  | some fault => .error fault
  | none => .ok (p.candidates, p.records)

/-- What a stage left, as an entry of a queue leaves it. -/
def ranOf (r : List Value × Record) : Ran × Record := (⟨r.2.passed, r.2.message, r.1⟩, r.2)

/-- The alternatives of a block came as far as those of a tree. -/
def BlockProgress.Agrees (p : BlockProgress) (count : Nat) : Except Fault (List Left) → Prop
  | .error fault => p.fault = some fault
  | .ok ran => p.fault = none ∧ ran.length = count ∧
      p.branches = ran.map (fun r => .mk (allPassed r.2) r.2) ∧
      p.survivors = (ran.filter fun r => allPassed r.2).map Prod.fst

theorem result_runQueue_cons (run : Evaluator) (branchesOf : Nat → List ChainId) (entry : Entry)
    (rest : List Entry) (candidates : List Value) :
    (runQueue run branchesOf (entry :: rest) candidates).result
      = do
        let (ran, record) ← (runEntry run branchesOf candidates entry).1
        let (vs, records) ← (runQueue run branchesOf rest ran.candidates).result
        return (vs, record :: records) := by
  rw [runQueue]
  obtain ⟨result, visits⟩ := runEntry run branchesOf candidates entry
  cases result with
  | error fault => rfl
  | ok r =>
    simp only [Progress.result, bind, Except.bind]
    cases (runQueue run branchesOf rest r.1.candidates).fault <;> rfl

theorem runBlock_of_agrees {run : Evaluator} {candidates : List Value} {ks : List ChainId}
    {ran : Except Fault (List Left)}
    (h : (runBranches run candidates ks).Agrees ks.length ran) :
    ((runBlock run candidates ks).1.map fun r =>
        (r.1, Record.mk "either" r.1.passed r.1.message r.2))
      = (ran >>= joinAlternatives candidates).map ranOf := by
  cases ran with
  | error fault =>
    have hf : (runBranches run candidates ks).fault = some fault := h
    simp only [runBlock, hf]
    rfl
  | ok ran =>
    obtain ⟨hf, hlength, hbranches, hsurvivors⟩ := h
    have hpassing : (ran.filter fun r => allPassed r.2).length
        = (runBranches run candidates ks).survivors.length := by rw [hsurvivors, List.length_map]
    simp only [runBlock, hf, ← hlength, hbranches, hsurvivors, List.isEmpty_map,
      List.length_map, bind, Except.bind, joinAlternatives]
    split
    · rfl
    · cases unite ((ran.filter fun r => allPassed r.2).map Prod.fst) <;> rfl

/-- Running one alternative more. -/
theorem agrees_cons {run : Evaluator} {candidates : List Value} {k : ChainId}
    {ks : List ChainId} {ran : Except Fault Left} {rest : Except Fault (List Left)}
    (hk : (run k candidates).result = ran)
    (hks : (runBranches run candidates ks).Agrees ks.length rest) :
    (runBranches run candidates (k :: ks)).Agrees (k :: ks).length
      (do return (← ran) :: (← rest)) := by
  unfold Progress.result at hk
  rw [runBranches]
  cases hf : (run k candidates).fault with
  | some fault =>
    rw [hf] at hk
    subst hk
    rfl
  | none =>
    rw [hf] at hk
    subst hk
    cases rest with
    | error fault => exact hks
    | ok rest =>
      obtain ⟨hnone, hlength, hbranches, hsurvivors⟩ := hks
      refine ⟨hnone, by simp [hlength], ?_, ?_⟩
      · simp [Progress.passed, hf, hbranches]
      · simp only [Progress.passed, hf, hsurvivors, List.filter_cons]
        split <;> simp_all

namespace Family

variable {f : Family}

theorem Linked.result_run (h : f.Linked) {k : Nat} (hk : k < f.members.length)
    (candidates : List Value) :
    (f.run k candidates).result
      = (runQueue f.run f.branchesOf (f.queueOf k) candidates).result := by
  rw [h.run_eq hk]
  rfl

/-- The alternatives of a block are members. -/
theorem Linked.branch_lt (h : f.Linked) {b : Nat} {c : ChainId} (hc : c ∈ f.branchesOf b) :
    c < f.members.length := by
  obtain ⟨block, hblock, hc⟩ := mem_branchesOf.mp hc
  obtain ⟨_, m, _, hm, _⟩ := h.forked hblock hc
  exact (List.getElem?_eq_some_iff.mp hm).1

mutual

theorem Linked.runEntry_of_fits (h : f.Linked) : ∀ {s : Stage} {entry : Entry}
    {candidates : List Value}, s.Fits f entry →
      (runEntry f.run f.branchesOf candidates entry).1
        = (s.eval f.document.root f.limit candidates).map ranOf
  | .plain operation, entry, candidates, hfits => by
    obtain ⟨s, hs, rfl⟩ := hfits
    simp only [Stage.eval, hs, runEntry]
    cases hrun : s.run candidates with
    | error fault => simp only [bind, Except.bind, hrun, Except.map]
    | ok ran => simp only [bind, Except.bind, hrun, Except.map, pure, Except.pure]; rfl
  | .block first others, entry, candidates, hfits => by
    obtain ⟨b, c, cs, rfl, hbranches, hfirst, hothers⟩ := hfits
    have hlt : ∀ k ∈ c :: cs, k < f.members.length := fun k hk =>
      h.branch_lt (hbranches ▸ hk)
    have hagrees := agrees_cons
      ((h.result_run (hlt c List.mem_cons_self) candidates).trans (h.runQueue_of_fits hfirst))
      (h.runBranches_of_fits hothers fun k hk => hlt k (List.mem_cons_of_mem _ hk))
    rw [runEntry_block, hbranches, runBlock_of_agrees hagrees, Stage.eval]
    simp

/-- **A queue that fits a track runs as the track means.** -/
theorem Linked.runQueue_of_fits (h : f.Linked) : ∀ {t : List Stage} {queue : List Entry}
    {candidates : List Value}, TrackFits f t queue →
      (runQueue f.run f.branchesOf queue candidates).result
        = evalTrack f.document.root f.limit candidates t
  | [], queue, candidates, hfits => by
    have hqueue : queue = [] := hfits
    rw [hqueue]
    rfl
  | s :: t, queue, candidates, hfits => by
    obtain ⟨entry, after, rfl, hs, ht⟩ := hfits
    rw [result_runQueue_cons, h.runEntry_of_fits hs, evalTrack]
    cases s.eval f.document.root f.limit candidates with
    | error fault => rfl
    | ok r =>
      have hrest : ∀ vs, (runQueue f.run f.branchesOf after vs).result
          = evalTrack f.document.root f.limit vs t := fun vs => h.runQueue_of_fits ht
      simp only [Except.map, bind, Except.bind, ranOf, hrest]

theorem Linked.runBranches_of_fits (h : f.Linked) : ∀ {ts : List (List Stage)}
    {ks : List ChainId} {candidates : List Value}, EachFits f ts ks →
      (∀ k ∈ ks, k < f.members.length) →
      (runBranches f.run candidates ks).Agrees ks.length
        (evalEach f.document.root f.limit candidates ts)
  | [], ks, candidates, hfits, _ => by
    have hks : ks = [] := hfits
    rw [hks]
    exact ⟨rfl, rfl, rfl, rfl⟩
  | t :: ts, ks, candidates, hfits, hlt => by
    obtain ⟨c, cs, rfl, ht, hts⟩ := hfits
    have hc := (h.result_run (hlt c List.mem_cons_self) candidates).trans (h.runQueue_of_fits ht)
    exact agrees_cons hc
      (h.runBranches_of_fits hts fun k hk => hlt k (List.mem_cons_of_mem _ hk))

end

end Family

end Attest

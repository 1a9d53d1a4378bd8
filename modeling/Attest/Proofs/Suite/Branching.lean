import Attest.Proofs.Chain.Agreement
import Attest.Proofs.Chain.Verdict
import Attest.Proofs.Suite.Outcomes
import Attest.Proofs.Suite.Replay

/-!
# Two accounts of blocks

The validator counts the blocks that steps leave open. A chain that the steps are replayed on keeps
a stack of them, which all its alternatives share while the chain at hand moves from one to
another. This file proves that the number is at all times the height of the stack, also after steps
that both object to, and that both object to the same steps.

The steps may be any that stand for operations, so the replay has to go on where an operation turns
out not to be applicable: a call that gives no chain leaves the one at hand. Where every step can
be built this is the replay that a suite is run by.

## Main definitions

* `Family.misusedSteps` — the steps whose calls are noted for a misuse
* `Outcome.Blames` — an outcome that failed because of misused or open blocks
* `Suite.BlocksAgree` — what the validator says about blocks is what comes of the steps

## Main results

* `Suite.misuse_call_of_spells`, `length_openBlocks_call` — one step
* `Suite.misuse_strung`, `stepsErrorsFrom_strung` — any number of steps
* `Suite.branch_errors_are_misuses` — the errors for blocks foretell the outcome of a check
-/

namespace Attest

/-- What a chain notes of an operation that belongs to no block. -/
def Op.complaint (op : Op) : String := s!"{op.name}() without either()"

/-- An outcome that failed because of problems with the use of blocks, and names all of them. -/
structure Outcome.Blames (outcome : Outcome) (problems : List String) : Prop where
  nonempty : problems ≠ []
  failed : outcome.passed = false
  reason : outcome.reason = "; ".intercalate problems

namespace Family

variable {f r : Family} {k : ChainId} {c : Call}

/-! ### The end of a replay -/

/-- A finalizer notes nothing, and opens and closes no block, whether it can be described or
not. -/
theorem notes_of_finalizes (hc : c.Finalizes) (f : Family) (k : ChainId) :
    (f.call k c).1.misuse = f.misuse ∧ (f.call k c).1.openBlocks = f.openBlocks := by
  by_cases hd : c.Indescribable
  · rw [call_of_indescribable hd]
    exact ⟨rfl, rfl⟩
  · exact finalizer_notes hc (.inr ⟨hc, hd⟩) f k

/-- If blocks were misused or left open, the outcome of a valid document says so, and says so
only then. -/
theorem blames_iff (hv : f.document.problem = none) {outcome : Outcome}
    (h : f.evaluation = .ok outcome) : outcome.Blames f.problems ↔ f.problems ≠ [] := by
  refine ⟨Outcome.Blames.nonempty, fun hproblems => ?_⟩
  obtain ⟨texts, rfl⟩ := outcomeOf_eq_ok (evaluation_eq_ok hv h).2
  refine ⟨hproblems, ?_, reason_of_problems hproblems _⟩
  rw [List.isEmpty_eq_false_iff.mpr hproblems, Bool.false_and]

theorem readied_problems (h : f.readied k c = .ok r) : r.problems = f.problems := by
  rw [readied_shared h]
  rfl

/-- A finalizer reports an outcome or raises a fault, and the outcome of a valid document blames
blocks iff there is something to blame. -/
theorem reported_of_finalizes (hf : f.finalized = false) (hn : f.reported = [])
    (hc : c.Finalizes) (k : ChainId) :
    ((f.call k c).1.reported = [] → ∃ fault, (f.call k c).2 = .error fault) ∧
      (f.document.problem = none → ∀ outcome ∈ (f.call k c).1.reported,
        (outcome.Blames f.problems ↔ f.problems ≠ [])) := by
  by_cases hd : c.Indescribable
  · rw [call_of_indescribable hd, hn]
    exact ⟨fun _ => ⟨_, rfl⟩, fun _ _ hmem => nomatch hmem⟩
  · obtain ⟨r, hr, herror, hok⟩ := (settled_of_settles hf hn (.inr ⟨hc, hd⟩) k).finalized hc
    cases he : r.evaluation with
    | error fault =>
      obtain ⟨hreply, hreported⟩ := herror fault he
      rw [hreply, hreported]
      exact ⟨fun _ => ⟨fault, rfl⟩, fun _ _ hmem => nomatch hmem⟩
    | ok outcome =>
      rw [(hok outcome he).2]
      refine ⟨fun hempty => (nomatch hempty), fun hv reported hmem => ?_⟩
      obtain rfl : reported = outcome := List.mem_singleton.mp hmem
      have hvalid : r.document.problem = none := by
        rw [readied_shared hr]
        exact hv
      rw [← readied_problems hr]
      exact blames_iff hvalid he

/-! ### Calls strung together -/

/-- A building call that a fault interrupts does nothing. -/
theorem call_of_builds_error (hc : c.Builds) {fault : Fault} (h : (f.call k c).2 = .error fault) :
    (f.call k c).1 = f := by
  cases c with
  | queue operation =>
    simp only [call, perform] at h ⊢
    split at h
    · rfl
    · cases h
  | openBlock | nextBranch | closeBlock => cases h
  | verify | finish | trace | close | enter | exit => exact hc.elim

/-- The steps whose calls are noted for a misuse when the calls are strung together, with their
positions. -/
def misusedSteps (f : Family) (k : ChainId) (index : Nat) : List (Op × Call) → List (Nat × Op)
  | [] => []
  | (op, c) :: rest =>
    let (g, reply) := f.call k c
    let others := g.misusedSteps (nextChain k reply) (index + 1) rest
    if g.misuse = f.misuse then others else (index, op) :: others

theorem misusedSteps_cons (f : Family) (k : ChainId) (index : Nat) (op : Op) (c : Call)
    (rest : List (Op × Call)) :
    f.misusedSteps k index ((op, c) :: rest)
      = if (f.call k c).1.misuse = f.misuse then
          (f.call k c).1.misusedSteps (nextChain k (f.call k c).2) (index + 1) rest
        else (index, op)
          :: (f.call k c).1.misusedSteps (nextChain k (f.call k c).2) (index + 1) rest := rfl

/-- Building calls come to a chain that further calls are made on. -/
theorem Coherent.strung_append : ∀ {calls : List Call} {f : Family} {k : ChainId}, f.Coherent →
    k < f.members.length → (∀ c ∈ calls, c.Builds) →
      Reached Call.Builds f (f.strung k calls).1 ∧
        ∃ j, ∀ rest, f.strung k (calls ++ rest)
          = (((f.strung k calls).1.strung j rest).1,
            (f.strung k calls).2 ++ ((f.strung k calls).1.strung j rest).2)
  | [], f, k, _, _, _ => ⟨.start, k, fun _ => rfl⟩
  | c :: calls, f, k, hf, hk, hbuilds => by
    obtain ⟨hc, hbuilds⟩ := List.forall_mem_cons.mp hbuilds
    have hnext : nextChain k (f.call k c).2 < (f.call k c).1.members.length := by
      rcases hf.reply_of_builds hk hc with ⟨j, hreply, hj⟩ | ⟨fault, hreply⟩
      · rw [hreply]
        exact hj
      · rw [hreply, call_of_builds_error hc hreply]
        exact hk
    obtain ⟨hreached, j, hrest⟩ := (hf.call hk hc).strung_append hnext hbuilds
    refine ⟨.trans (.call .start hk hc) hreached, j, fun rest => ?_⟩
    rw [List.cons_append, strung_cons, strung_cons, hrest rest]
    rfl

/-- Calls that are strung together and all give a chain are those that a chain is built by. -/
theorem strung_of_fluent {g : Family} {j : ChainId} : ∀ {calls : List Call} {f : Family}
    {k : ChainId}, f.fluent k calls = some (g, j) → ∀ rest,
      (f.strung k (calls ++ rest)).1 = (g.strung j rest).1
  | [], f, k, h, rest => by
    cases h
    rfl
  | c :: calls, f, k, h, rest => by
    rw [fluent] at h
    split at h
    · next f' i hcall =>
      rw [List.cons_append, strung_cons, hcall]
      exact strung_of_fluent h rest
    · cases h

end Family

namespace Suite

variable {f : Family} {k : ChainId}

/-! ### One step -/

/-- An operation is noted iff it belongs to a block and the number of open blocks is zero. -/
theorem complaints_of_spells {op : Op} {c : Call} (h : op.Spells c) (f : Family) :
    f.complaints c = if (blockDepth f.openBlocks.length op).2 then [op.complaint] else [] := by
  cases op with
  | orElse | end_ =>
    cases h
    cases ho : f.openBlocks with
    | nil =>
      simp only [Family.complaints, ho]
      rfl
    | cons b rest => simp [Family.complaints, ho, blockDepth]
  | either | verify =>
    cases h
    rfl
  | exactly | atLeast | atMost =>
    obtain ⟨n, rfl⟩ := h
    rfl
  | _ =>
    obtain ⟨operation, rfl⟩ := h
    rfl

/-- **The validator objects to an operation iff a chain does.** -/
theorem misuse_call_of_spells {op : Op} {c : Call} (h : op.Spells c) (f : Family) (k : ChainId) :
    (f.call k c).1.misuse = f.misuse
      ++ if (blockDepth f.openBlocks.length op).2 then [op.complaint] else [] := by
  rw [← complaints_of_spells h]
  rcases h.sort with ⟨_, hfinalizes⟩ | ⟨_, hbuilds⟩
  · have hnone : f.complaints c = [] := by cases c <;> first | rfl | exact hfinalizes.elim
    rw [hnone, List.append_nil]
    exact (Family.notes_of_finalizes hfinalizes f k).1
  · exact Family.misuse_call hbuilds

/-- **The validator's number of open blocks is the height of the stack.** -/
theorem length_openBlocks_call {op : Op} {c : Call} (h : op.Spells c) (f : Family)
    (k : ChainId) :
    (f.call k c).1.openBlocks.length = (blockDepth f.openBlocks.length op).1 := by
  rcases h.sort with ⟨hends, hfinalizes⟩ | ⟨hends, _⟩
  · rw [(Family.notes_of_finalizes hfinalizes f k).2, blockDepth_of_endsCheck hends]
  · cases op with
    | verify | exactly | atLeast | atMost => cases hends
    | either =>
      cases h
      rfl
    | orElse =>
      cases h
      simp only [Family.call, Family.nextBranch, blockDepth]
      split <;> rfl
    | end_ =>
      cases h
      simp only [Family.call, Family.closeBlock, blockDepth]
      split
      · next ho => simp [Family.noteMisuse, ho]
      · next ho => simp [ho]
    | _ =>
      obtain ⟨operation, rfl⟩ := h
      simp only [Family.call, Family.perform]
      split
      · rfl
      · rw [Family.openBlocks_queueFor]
        rfl

/-! ### Any number of steps -/

/-- The errors for steps that belong to a block and are in none. -/
def unopenedErrors (path : String) (misused : List (Nat × Op)) : List SuiteError :=
  misused.map fun (index, op) =>
    problem s!"{path}[{index}]" s!"'{op.name}' without a preceding 'either'"

/-- The error for blocks that are left open, if there are any. -/
def unclosedErrors (path : String) (left : Nat) : List SuiteError :=
  if left = 0 then [] else [problem path s!"{left} 'either' block(s) not closed with 'end'"]

theorem placeErrors_of_last {op : Op} {isLast : Bool} (h : op.endsCheck → isLast = true)
    (unopened : Bool) (path : String) :
    placeErrors op unopened isLast path
      = if unopened then [problem path s!"'{op.name}' without a preceding 'either'"] else [] := by
  have hlast : (op.endsCheck && !isLast) = false := by
    cases hop : op.endsCheck with
    | false => rfl
    | true => rw [h hop]; rfl
  rw [placeErrors, hlast]
  exact List.append_nil _

/-- A call is noted iff its operation belongs to a block and is in none. -/
theorem misusedSteps_of_spells {op : Op} {c : Call} (h : op.Spells c) (f : Family) (k : ChainId)
    (index : Nat) (rest : List (Op × Call)) :
    f.misusedSteps k index ((op, c) :: rest)
      = (if (blockDepth f.openBlocks.length op).2 then [(index, op)] else [])
        ++ (f.call k c).1.misusedSteps (Family.nextChain k (f.call k c).2) (index + 1) rest := by
  rw [Family.misusedSteps_cons, misuse_call_of_spells h]
  cases (blockDepth f.openBlocks.length op).2 <;> simp

/-- What a chain notes are the complaints of the misused steps, in their order. -/
theorem misuse_strung {ops : List Op} {calls : List Call}
    (h : List.Forall₂ Op.Spells ops calls) (f : Family) (k : ChainId) (index : Nat) :
    (f.strung k calls).1.misuse
      = f.misuse ++ (f.misusedSteps k index (ops.zip calls)).map fun step => step.2.complaint := by
  induction h generalizing f k index with
  | nil => exact (List.append_nil _).symm
  | @cons op c ops calls hspells _ ih =>
    rw [Family.strung_cons, ih, misuse_call_of_spells hspells, List.zip_cons_cons,
      misusedSteps_of_spells hspells, List.map_append, List.append_assoc]
    cases (blockDepth f.openBlocks.length op).2 <;> rfl

/-- **The validator's count follows the chain.** Started with as many blocks as are open on a chain,
it objects to the steps whose calls are misuses, and ends with as many as are open then. -/
theorem stepsErrorsFrom_strung (path : String) {steps : List Value} {ops : List Op}
    {calls : List Call} (hsteps : List.Forall₂ StepIs steps ops)
    (hcalls : List.Forall₂ Op.Spells ops calls) (hlast : FinalizesLast ops) (f : Family)
    (k : ChainId) (index : Nat) :
    stepsErrorsFrom path index f.openBlocks.length steps
      = .ok (unopenedErrors path (f.misusedSteps k index (ops.zip calls)),
          (f.strung k calls).1.openBlocks.length) := by
  induction hsteps generalizing calls f k index with
  | nil =>
    cases hcalls
    rfl
  | @cons step op steps ops hstep hrest ih =>
    cases hcalls with
    | @cons _ c _ calls hspells hcalls =>
      obtain ⟨hends, hlast⟩ := finalizesLast_cons_iff.mp hlast
      have hisLast : op.endsCheck → steps.isEmpty = true := by
        intro hop
        rw [hends hop] at hrest
        cases hrest
        rfl
      rw [stepsErrorsFrom_of_op (stepErrors_eq_nil_iff.mpr ⟨op, rfl, hstep⟩),
        placeErrors_of_last hisLast, ← length_openBlocks_call hspells f k, ih hcalls hlast]
      rw [Family.strung_cons, List.zip_cons_cons, misusedSteps_of_spells hspells]
      simp only [bind, Except.bind, pure, Except.pure, unopenedErrors, List.map_append,
        List.nil_append]
      cases (blockDepth f.openBlocks.length op).2 <;> rfl

theorem stepsErrors_of_from {path : String} {steps : List Value} {errors : List SuiteError}
    {left : Nat} (h : stepsErrorsFrom path 0 0 steps = .ok (errors, left)) :
    stepsErrors steps path = .ok (errors ++ unclosedErrors path left) := by
  rw [stepsErrors, h]
  rfl

/-! ### Whole checks -/

/-- What the validator says about the blocks of steps is what comes of the steps on a chain. The
steps are given by their operations and the calls that these make; the calls before the finalizer
and the finalizer itself are given once more. -/
structure BlocksAgree (path : String) (steps : List Value) (made : List (Op × Call))
    (building : List Call) (last : Call) (f : Family) : Prop where
  /-- The steps that the validator objects to are those whose calls are misuses, in their order,
  and the number of open blocks that it gives is that of the stack at finalization. -/
  errors : stepsErrors steps path
    = .ok (unopenedErrors path (f.misusedSteps 0 0 made)
        ++ unclosedErrors path (f.strung 0 building).1.openBlocks.length)
  /-- The chain notes them under the same names. -/
  misuse : (f.strung 0 building).1.misuse
    = (f.misusedSteps 0 0 made).map fun step => step.2.complaint
  rejected_iff : stepsErrors steps path ≠ .ok [] ↔ (f.strung 0 building).1.problems ≠ []
  /-- The finalizer reports an outcome, unless a fault interrupts it. -/
  reports : (f.strung 0 (building ++ [last])).1.reported = [] →
    ∃ fault, (f.strung 0 (building ++ [last])).2.getLast? = some (.error fault)
  /-- The outcome blames blocks iff the validator rejects the steps. -/
  blames_iff : f.document.problem = none →
    ∀ outcome ∈ (f.strung 0 (building ++ [last])).1.reported,
      (stepsErrors steps path ≠ .ok [] ↔ outcome.Blames (f.strung 0 building).1.problems)

theorem errors_eq_nil_iff {path : String} {misused : List (Nat × Op)}
    (hmisuse : f.misuse = misused.map fun step => step.2.complaint) :
    unopenedErrors path misused ++ unclosedErrors path f.openBlocks.length = [] ↔
      f.problems = [] := by
  rw [Family.problems_eq_nil_iff, hmisuse, List.append_eq_nil_iff]
  refine and_congr ?_ ?_
  · rw [unopenedErrors, List.map_eq_nil_iff, List.map_eq_nil_iff]
  · rw [unclosedErrors, ← List.length_eq_zero_iff]
    split <;> simp_all

/-- Whether the finalizer is one of the calls or not, it notes nothing. -/
theorem notes_strung {calls building : List Call} {last : Call} (hf : f.Coherent)
    (hk : k < f.members.length) (hbuilds : ∀ c ∈ building, c.Builds) (hlast : last.Finalizes)
    (h : calls = building ++ [last] ∨ calls = building ∧ last = .verify) :
    (f.strung k calls).1.misuse = (f.strung k building).1.misuse ∧
      (f.strung k calls).1.openBlocks = (f.strung k building).1.openBlocks := by
  rcases h with rfl | ⟨rfl, -⟩
  · obtain ⟨_, j, hrest⟩ := hf.strung_append hk hbuilds
    rw [hrest]
    exact Family.notes_of_finalizes hlast _ j
  · exact ⟨rfl, rfl⟩

/-- **What the validator says about blocks is what comes of them,** on any chain that was neither
used nor finalized before. -/
theorem blocksAgree (path : String) {steps : List Value} {ops : List Op} {calls : List Call}
    (hsteps : List.Forall₂ StepIs steps ops) (hcalls : List.Forall₂ Op.Spells ops calls)
    (hends : FinalizesLast ops) {building : List Call} {last : Call}
    (hbuilds : ∀ c ∈ building, c.Builds) (hlast : last.Finalizes)
    (h : calls = building ++ [last] ∨ calls = building ∧ last = .verify) (hf : f.Coherent)
    (hfinalized : f.finalized = false) (hreported : f.reported = []) (hmisuse : f.misuse = [])
    (hopen : f.openBlocks = []) : BlocksAgree path steps (ops.zip calls) building last f := by
  obtain ⟨hreached, j, hrest⟩ := hf.strung_append hf.length_pos hbuilds
  have hbuilt := hreached.built hf
  obtain ⟨hsameMisuse, hsameOpen⟩ := notes_strung hf hf.length_pos hbuilds hlast h
  have hnotes : (f.strung 0 building).1.misuse
      = (f.misusedSteps 0 0 (ops.zip calls)).map fun step => step.2.complaint := by
    rw [← hsameMisuse, misuse_strung hcalls f 0 0, hmisuse, List.nil_append]
  have hcounted := stepsErrorsFrom_strung path hsteps hcalls hends f 0 0
  rw [hopen, List.length_nil, hsameOpen] at hcounted
  have herrors := stepsErrors_of_from hcounted
  have hrejected : stepsErrors steps path ≠ .ok [] ↔ (f.strung 0 building).1.problems ≠ [] := by
    rw [herrors, ne_eq, Except.ok.injEq, errors_eq_nil_iff hnotes]
  obtain ⟨hreports, hblames⟩ := Family.reported_of_finalizes
    (hbuilt.finalized_eq.trans hfinalized) (hbuilt.reported_eq.trans hreported) hlast j
  refine ⟨herrors, hnotes, hrejected, ?_, ?_⟩
  · rw [hrest [last]]
    intro hempty
    obtain ⟨fault, hfault⟩ := hreports hempty
    exact ⟨fault, by rw [Family.strung_cons, hfault]; simp [Family.strung]⟩
  · rw [hrest [last]]
    intro hv outcome hmem
    rw [hrejected]
    exact (hblames (hbuilt.document_eq ▸ hv) outcome hmem).symm

/-- **The errors for blocks are the misuses of a chain.** Steps that stand for operations, balanced
or not, of which no one but the last ends the check, make calls, and these can be replayed on a
chain on any document. The validator objects to the steps whose calls are noted for a misuse, in the
same order and under the same names, and the number of open blocks that it gives is that of the
blocks on the stack when the chain is finalized. So it rejects the steps for their blocks iff the
outcome of the chain blames blocks, if the document is valid and no fault keeps the chain from
reporting. A check of which every step can be built is run by this replay. -/
theorem branch_errors_are_misuses {steps : List Value} {ops : List Op}
    (hsteps : List.Forall₂ StepIs steps ops) (hends : FinalizesLast ops) (queries : QueryEngine)
    (path : String) :
    ∃ invocations calls building last,
      Draft.readSteps steps = .ok invocations ∧ invocations.map Invocation.op = ops ∧
      List.Forall₂ (fun i call => callOf queries i = .ok call) invocations calls ∧
      (calls = building ++ [last] ∨ calls = building ∧ last = .verify) ∧
      (∀ c ∈ building, c.Builds) ∧ last.Finalizes ∧
      ∀ document title limit raising,
        BlocksAgree path steps (ops.zip calls) building last
          (Family.start document title limit raising) ∧
        ((∀ c ∈ building, c.Buildable document.root limit) →
          (replay queries (Family.start document title limit raising) 0 invocations).1
            = ((Family.start document title limit raising).strung 0 (building ++ [last])).1) := by
  obtain ⟨invocations, hread, -, rfl, hcalls⟩ := reads_steps hsteps
  obtain ⟨calls, hcalls⟩ := hcalls queries
  obtain ⟨first, building, rest, rfl, hfirst, hnone, hbuilds, hrest⟩ :=
    exists_finalizer hcalls hends
  obtain ⟨last, hlast, hsplit, hreplay⟩ := exists_last hrest
  have hspells : List.Forall₂ Op.Spells ((first ++ rest).map Invocation.op) calls :=
    List.forall₂_map_left_iff.mpr (hcalls.imp fun _ _ hcall => spells_of_callOf hcall.binds)
  refine ⟨first ++ rest, calls, building, last, hread, rfl,
    hcalls.imp fun _ _ => Performs.binds, hsplit, hbuilds, hlast,
    fun document title limit raising => ?_⟩
  have hstart := Family.coherent_start document title limit raising
  refine ⟨blocksAgree path hsteps hspells hends hbuilds hlast hsplit hstart rfl rfl rfl rfl,
    fun hbuild => ?_⟩
  obtain ⟨g, j, hfluent, -⟩ := hstart.exists_fluent (k := 0) hstart.length_pos hbuilds
    fun operation ho => hbuild (.queue operation) ho
  rw [replay_of_fluent hfirst hnone hfluent, hreplay, Family.strung_of_fluent hfluent [last]]
  rfl

/-- Steps that end a block, which is not open, and open one, which they leave so. -/
def strayedSteps : List Value :=
  [.str "end", .str "either", .str "is_null", .record [("at_most", .int 1)]]

/-- The validator rejects them twice, and so does a chain on a null document. -/
theorem branch_errors_are_misuses_of_strayed :
    List.Forall₂ StepIs strayedSteps [.end_, .either, .isNull, .atMost] ∧
      FinalizesLast [.end_, .either, .isNull, .atMost] ∧
      stepsErrors strayedSteps "steps"
        = .ok [problem "steps[0]" "'end' without a preceding 'either'",
          problem "steps" "1 'either' block(s) not closed with 'end'"] ∧
      ∃ calls building last,
        BlocksAgree "steps" strayedSteps ([Op.end_, .either, .isNull, .atMost].zip calls) building
          last (Family.start (.ofValue .null) "" 100 false) ∧
        ∀ outcome ∈ ((Family.start (.ofValue .null) "" 100 false).strung 0
            (building ++ [last])).1.reported,
          outcome.passed = false := by
  have hsteps : List.Forall₂ StepIs strayedSteps [.end_, .either, .isNull, .atMost] :=
    .cons (@StepIs.bare .end_ rfl) (.cons (@StepIs.bare .either rfl)
      (.cons (@StepIs.bare .isNull rfl) (.cons (@StepIs.given .atMost _ _ ⟨1, rfl, by decide⟩) .nil)))
  have hends : FinalizesLast [.end_, .either, .isNull, .atMost] := by
    simp only [finalizesLast_cons_iff]
    exact ⟨nofun, nofun, nofun, fun _ => trivial, fun before _ _ h => by simp at h⟩
  have herrors : stepsErrors strayedSteps "steps"
      = .ok [problem "steps[0]" "'end' without a preceding 'either'",
        problem "steps" "1 'either' block(s) not closed with 'end'"] := rfl
  obtain ⟨_, calls, building, last, -, -, -, -, -, -, hall⟩ :=
    branch_errors_are_misuses hsteps hends Query.engine "steps"
  obtain ⟨hagree, -⟩ := hall (.ofValue .null) "" 100 false
  refine ⟨hsteps, hends, herrors, calls, building, last, hagree, fun outcome hmem => ?_⟩
  have hrejected : stepsErrors strayedSteps "steps" ≠ .ok [] := by
    rw [herrors]
    simp
  exact ((hagree.blames_iff rfl outcome hmem).mp hrejected).failed

end Suite

end Attest

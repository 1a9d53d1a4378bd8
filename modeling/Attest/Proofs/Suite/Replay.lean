import Attest.Proofs.Chain.Meaning
import Attest.Proofs.Chain.Settlement
import Attest.Proofs.Suite.Reading

/-!
# Replaying checks

The calls of a check are made one after the other, each on the chain that the last one gave back.
For a suite that conforms this means that they are strung together: all of them are made, they come
back to the origin with every block closed, and then the one finalizer is made there, which is the
last step or else is made without being asked for.

What can be in the way is a step that cannot be built, since a path or expression is wrong or a
value has no text. This is the only condition.

## Main definitions

* `Suite.Replays` — what comes of a check of which all steps can be built

## Main results

* `Family.fluent_of_bracketed` — bracketed calls come back to the origin and are never noted
* `Suite.replay_of_fluent` — replaying is making calls that are strung together
* `Suite.valid_suite_replays` — accepted suites are read and replayed completely
-/

namespace Attest

theorem Call.Buildable.settles {root : Value} {limit : Int} {c : Call}
    (h : c.Buildable root limit) (hc : c.Finalizes) : c.Settles := by
  refine .inr ⟨hc, fun hd => ?_⟩
  cases c with
  | finish relation n => exact hd ((succeeds_count_iff relation).mp h)
  | _ => exact hd

theorem Call.Finalizes.buildable {c : Call} (h : c.Finalizes) (hd : ¬ c.Indescribable)
    (root : Value) (limit : Int) : c.Buildable root limit := by
  cases c with
  | finish relation n => exact (succeeds_count_iff relation).mpr (not_not.mp hd)
  | verify => trivial
  | queue | openBlock | nextBranch | closeBlock | trace | close | enter | exit => exact h.elim

namespace Family

variable {f g : Family} {k j : ChainId}

/-- A bracketed call is not noted, and those after it are bracketed in what it leaves open. -/
theorem bracketed_call {c : Call} {rest : List Call}
    (h : BracketedFrom f.openBlocks.length (c :: rest)) (k : ChainId) :
    c.Builds ∧ f.complaints c = [] ∧ BracketedFrom (f.call k c).1.openBlocks.length rest := by
  cases c with
  | queue operation =>
    refine ⟨trivial, rfl, ?_⟩
    simp only [call, perform]
    split <;> simpa [BracketedFrom] using h
  | openBlock =>
    have hrest : BracketedFrom (f.openBlocks.length + 1) rest := by simpa [BracketedFrom] using h
    exact ⟨trivial, rfl, hrest⟩
  | nextBranch =>
    cases ho : f.openBlocks with
    | nil => simp [ho, BracketedFrom] at h
    | cons b blocks =>
      rw [ho, List.length_cons] at h
      refine ⟨trivial, by simp [complaints, ho], ?_⟩
      simpa [call, nextBranch, ho, branchOff, BracketedFrom] using h
  | closeBlock =>
    cases ho : f.openBlocks with
    | nil => simp [ho, BracketedFrom] at h
    | cons b blocks =>
      rw [ho, List.length_cons] at h
      refine ⟨trivial, by simp [complaints, ho], ?_⟩
      simpa [call, closeBlock, ho, BracketedFrom] using h
  | verify | finish | trace | close | enter | exit => simp [BracketedFrom] at h

/-- So no bracketed call is. -/
theorem misuse_of_bracketed {calls : List Call} (h : BracketedFrom f.openBlocks.length calls)
    (hf : f.fluent k calls = some (g, j)) : g.misuse = f.misuse := by
  induction calls generalizing f k with
  | nil =>
    cases hf
    rfl
  | cons c rest ih =>
    obtain ⟨hbuilds, hquiet, hrest⟩ := bracketed_call h k
    rw [fluent] at hf
    split at hf
    · next f' i hcall =>
      have hf' : f' = (f.call k c).1 := by rw [hcall]
      rw [ih (hf' ▸ hrest) hf, hf', misuse_call hbuilds, hquiet, List.append_nil]
    · cases hf

/-- **Bracketed calls come back to the origin**, with every block closed, if their steps can be
built; none of them is noted, and none finalizes the family. -/
theorem fluent_of_bracketed {document : Document} {limit : Int} {calls : List Call}
    (h : WellBracketed calls) (description : String) (raising : Bool)
    (hbuild : ∀ c ∈ calls, c.Buildable document.root limit) :
    ∃ f, (start document description limit raising).fluent 0 calls = some (f, 0) ∧
      f.Coherent ∧ (start document description limit raising).Built f ∧
      f.misuse = [] ∧ f.openBlocks = [] := by
  have hstart := coherent_start document description limit raising
  have hbuilds : ∀ c ∈ calls, c.Builds := by
    intro c hc
    rcases h.builds c hc with ⟨_, rfl⟩ | rfl | rfl | rfl <;> trivial
  obtain ⟨f, k, hf, hreached⟩ := hstart.exists_fluent (k := 0) hstart.length_pos hbuilds
    fun operation ho => hbuild _ ho
  have hmisuse : f.misuse = [] :=
    misuse_of_bracketed (f := start document description limit raising) h hf
  obtain ⟨t, rfl⟩ := exists_track h
  obtain ⟨rfl, hlays⟩ := lays_track hstart.length_pos hf
  exact ⟨f, hf, hreached.coherent hstart, hreached.built hstart, hmisuse, hlays.openBlocks⟩

/-- A conclusion notes nothing, and opens and closes no block. -/
theorem conclude_notes (f : Family) :
    f.conclude.1.misuse = f.misuse ∧ f.conclude.1.openBlocks = f.openBlocks := by
  cases hf : f.finalized with
  | true => exact ⟨by simp [conclude, hf], by simp [conclude, hf]⟩
  | false =>
    cases hv : f.document.problem with
    | some problem => exact ⟨by simp [conclude, hf, hv, report], by simp [conclude, hf, hv, report]⟩
    | none =>
      cases hfault : (f.run 0 f.startCandidates).fault with
      | some fault =>
        rw [conclude_of_fault hf hv hfault, ran_eq]
        exact ⟨rfl, rfl⟩
      | none =>
        cases ho : f.outcomeOf (f.run 0 f.startCandidates) with
        | error fault =>
          rw [conclude_of_hidden hf hv hfault ho, ran_eq]
          exact ⟨rfl, rfl⟩
        | ok outcome =>
          rw [conclude_of_outcome hf hv hfault ho, ran_eq]
          exact ⟨rfl, rfl⟩

/-- Neither does a finalizer. -/
theorem finalizer_notes {c : Call} (hc : c.Finalizes) (hs : c.Settles) (f : Family) (k : ChainId) :
    (f.call k c).1.misuse = f.misuse ∧ (f.call k c).1.openBlocks = f.openBlocks := by
  rcases call_of_settles hs f k with ⟨hclose, _⟩ | ⟨r, hr, hcall⟩
  · exact absurd hc hclose.not_finalizes
  · rw [hcall]
    obtain ⟨hmisuse, hopen⟩ := conclude_notes r
    rw [hmisuse, hopen, readied_shared hr]
    exact ⟨rfl, rfl⟩

/-- A call that gives a chain was built. -/
theorem buildable_of_chain {c : Call} (h : (f.call k c).2 = .ok (.chain j)) :
    c.Buildable f.document.root f.limit := by
  cases c with
  | queue operation =>
    cases hs : operation.step f.document.root f.limit with
    | ok s => exact ⟨s, hs⟩
    | error fault =>
      simp only [Family.call, perform, hs] at h
      cases h
  | finish relation n =>
    simp only [Family.call] at h
    split at h
    · cases h
    · obtain ⟨_, _, h⟩ := map_eq_ok h
      cases h
  | _ => trivial

end Family

namespace Suite

variable {queries : QueryEngine}

/-! ### Replaying -/

theorem Performs.loggedCall {i : Invocation} {call : Call} (h : Performs queries i call)
    {root : Value} {limit : Int} (hb : call.Buildable root limit) :
    loggedCall queries i = .ok call := by
  obtain ⟨text, hlog⟩ := h.logs root limit hb
  rw [Suite.loggedCall, hlog]
  exact h.binds

/-- **Replaying is making calls that are strung together**, up to a finalizer. -/
theorem replay_of_fluent {steps rest : List Invocation} {calls : List Call} {f g : Family}
    {k j : ChainId} (hcalls : List.Forall₂ (Performs queries) steps calls)
    (hends : ∀ i ∈ steps, i.op.endsCheck = false) (hf : f.fluent k calls = some (g, j)) :
    replay queries f k (steps ++ rest) = replay queries g j rest := by
  induction hcalls generalizing f k with
  | nil =>
    cases hf
    rfl
  | @cons i call steps calls hcall _ ih =>
    obtain ⟨hend, hends⟩ := List.forall_mem_cons.mp hends
    rw [Family.fluent] at hf
    split at hf
    · next f' k' hreply =>
      have hchain : (f.call k call).2 = .ok (.chain k') := by rw [hreply]
      rw [List.cons_append, replay, hcall.loggedCall (Family.buildable_of_chain hchain)]
      simp only [hreply, hend]
      exact ih hends hf
    · cases hf

theorem replay_nil (f : Family) (k : ChainId) :
    replay queries f k [] = ((f.call k .verify).1, (f.call k .verify).2.map fun _ => ()) := rfl

/-- A finalizer is made whatever it is given: if the log cannot say so, the chain cannot either. -/
theorem replay_finalizer {i : Invocation} {last : Call} (hcall : Performs queries i last)
    (hend : i.op.endsCheck = true) (hfinalizes : last.Finalizes) (f : Family) (k : ChainId)
    (rest : List Invocation) :
    replay queries f k (i :: rest) = ((f.call k last).1, (f.call k last).2.map fun _ => ()) := by
  rw [replay]
  by_cases hd : last.Indescribable
  · have hnothing := Family.call_of_indescribable hd f k
    cases hlog : logLine i with
    | error fault =>
      rw [hnothing, loggedCall, hlog, logLine_error hlog]
      rfl
    | ok text =>
      have hlogged : loggedCall queries i = .ok last := by
        rw [loggedCall, hlog]
        exact hcall.binds
      rw [hlogged]
      simp only [hnothing]
      rfl
  · rw [hcall.loggedCall (hfinalizes.buildable hd f.document.root f.limit)]
    simp only [hend]
    cases (f.call k last).2 <;> rfl

theorem blockDepth_of_endsCheck {op : Op} (h : op.endsCheck = true) (depth : Nat) :
    (blockDepth depth op).1 = depth := by
  cases op with
  | verify | exactly | atLeast | atMost => rfl
  | _ => cases h

/-- An operation within its block spells a call within its block. -/
theorem bracketedFrom_of_spells {op : Op} {call : Call} {rest : List Call} {depth : Nat}
    (h : op.Spells call) (hend : op.endsCheck = false) (hblock : op.NeedsBlock → 0 < depth)
    (hrest : BracketedFrom (blockDepth depth op).1 rest) : BracketedFrom depth (call :: rest) := by
  cases op with
  | either =>
    cases h
    simpa [BracketedFrom, blockDepth] using hrest
  | orElse =>
    cases depth with
    | zero => exact absurd (hblock (.inl rfl)) (Nat.lt_irrefl 0)
    | succ depth =>
      cases h
      exact hrest
  | end_ =>
    cases depth with
    | zero => exact absurd (hblock (.inr rfl)) (Nat.lt_irrefl 0)
    | succ depth =>
      cases h
      exact hrest
  | verify | exactly | atLeast | atMost => cases hend
  | _ =>
    obtain ⟨operation, rfl⟩ := h
    simpa [BracketedFrom, blockDepth] using hrest

/-- If no operation but the last one ends a check, the calls are building calls, and a finalizer if
there is one. -/
theorem exists_finalizer {steps : List Invocation} {calls : List Call}
    (hcalls : List.Forall₂ (Performs queries) steps calls)
    (hlast : FinalizesLast (steps.map Invocation.op)) :
    ∃ first building rest, steps = first ++ rest ∧
      List.Forall₂ (Performs queries) first building ∧
      (∀ i ∈ first, i.op.endsCheck = false) ∧ (∀ c ∈ building, c.Builds) ∧
      (rest = [] ∧ calls = building ∨ ∃ i last, rest = [i] ∧ calls = building ++ [last] ∧
        Performs queries i last ∧ i.op.endsCheck = true ∧ last.Finalizes) := by
  induction hcalls with
  | nil => exact ⟨[], [], [], rfl, .nil, by simp, by simp, .inl ⟨rfl, rfl⟩⟩
  | @cons i call steps calls hcall hrest ih =>
    obtain ⟨hend, hlast⟩ := finalizesLast_cons_iff.mp hlast
    rcases (spells_of_callOf hcall.binds).sort with ⟨hends, hfinalizes⟩ | ⟨hends, hbuilds⟩
    · obtain rfl : steps = [] := List.map_eq_nil_iff.mp (hend hends)
      cases hrest
      exact ⟨[], [], [i], rfl, .nil, by simp, by simp,
        .inr ⟨i, call, rfl, rfl, hcall, hends, hfinalizes⟩⟩
    · obtain ⟨first, building, rest, rfl, hfirst, hnone, hbuilding, hrest⟩ := ih hlast
      refine ⟨i :: first, call :: building, rest, rfl, .cons hcall hfirst,
        List.forall_mem_cons.mpr ⟨hends, hnone⟩, List.forall_mem_cons.mpr ⟨hbuilds, hbuilding⟩, ?_⟩
      rcases hrest with ⟨rfl, rfl⟩ | ⟨j, last, rfl, rfl, hlast⟩
      · exact .inl ⟨rfl, rfl⟩
      · exact .inr ⟨j, last, rfl, rfl, hlast⟩

/-- The finalizer of a check is made where the other calls end, whether a step asks for it or
not. -/
theorem exists_last {rest : List Invocation} {calls building : List Call}
    (h : rest = [] ∧ calls = building ∨ ∃ i last, rest = [i] ∧ calls = building ++ [last] ∧
      Performs queries i last ∧ i.op.endsCheck = true ∧ last.Finalizes) :
    ∃ last, last.Finalizes ∧ (calls = building ++ [last] ∨ calls = building ∧ last = .verify) ∧
      ∀ f k, replay queries f k rest = ((f.call k last).1, (f.call k last).2.map fun _ => ()) := by
  rcases h with ⟨rfl, rfl⟩ | ⟨i, last, rfl, rfl, hcall, hends, hfinalizes⟩
  · exact ⟨.verify, trivial, .inr ⟨rfl, rfl⟩, replay_nil⟩
  · exact ⟨last, hfinalizes, .inl rfl, fun f k => replay_finalizer hcall hends hfinalizes f k []⟩

/-- Operations in their order spell bracketed calls, up to a finalizer. -/
theorem bracketedFrom_of_bracketed {first : List Invocation} {building : List Call}
    (hcalls : List.Forall₂ (Performs queries) first building)
    (hends : ∀ i ∈ first, i.op.endsCheck = false) {rest : List Op}
    (hrest : ∀ op ∈ rest, op.endsCheck = true) {depth : Nat}
    (hbracketed : Bracketed depth (first.map Invocation.op ++ rest) 0) :
    BracketedFrom depth building := by
  induction hcalls generalizing depth with
  | nil =>
    -- a finalizer opens and closes no block
    have hcount : ∀ op : Op, op.endsCheck = false → rest.count op = 0 := fun op hop =>
      List.count_eq_zero.mpr fun hmem => by simp [hrest op hmem] at hop
    have hbalance := hbracketed.balance
    rw [List.map_nil, List.nil_append, hcount .either rfl, hcount .end_ rfl] at hbalance
    exact hbalance
  | cons hcall _ ih =>
    obtain ⟨hend, hends⟩ := List.forall_mem_cons.mp hends
    obtain ⟨hblock, hbracketed⟩ := bracketed_cons_iff.mp hbracketed
    exact bracketedFrom_of_spells (spells_of_callOf hcall.binds) hend hblock (ih hends hbracketed)

/-- What comes of a check of which all steps can be built. Its steps make the given calls, and then
the last one: every call can be made, those before the last one build, and the last one, which is
a verification if the steps do not name another, finalizes. The calls before it are made in their
order and come back to the origin, where the last one is made; after that the chain is finalized,
nothing was noted and no block is open. -/
structure Replays (queries : QueryEngine) (limit : Int) (plan : CheckPlan) (building : List Call)
    (last : Call) : Prop where
  binds : List.Forall₂ (fun i call => callOf queries i = .ok call) plan.steps
      (building ++ [last]) ∨
    List.Forall₂ (fun i call => callOf queries i = .ok call) plan.steps building ∧ last = .verify
  builds : ∀ c ∈ building, c.Builds
  finalizes : last.Finalizes
  runs : ∀ document : Document, (∀ c ∈ building ++ [last], c.Buildable document.root limit) →
    ∃ f, (Family.start document plan.title limit false).fluent 0 building = some (f, 0) ∧
      f.finalized = false ∧
      replay queries (Family.start document plan.title limit false) 0 plan.steps
        = ((f.call 0 last).1, (f.call 0 last).2.map fun _ => ()) ∧
      (f.call 0 last).1.finalized = true ∧
      (f.call 0 last).1.misuse = [] ∧ (f.call 0 last).1.openBlocks = []

/-- **Steps that conform are replayed completely**, if they can be built. -/
theorem CallsConform.replays {plan : CheckPlan} {calls : List Call}
    (h : CallsConform queries plan.steps calls) (limit : Int) :
    ∃ building last, Replays queries limit plan building last := by
  obtain ⟨first, building, rest, hsteps, hfirst, hnone, hbuilds, hrest⟩ :=
    exists_finalizer h.performs h.last
  have hfinal : ∀ op ∈ rest.map Invocation.op, op.endsCheck = true := by
    rcases hrest with ⟨rfl, -⟩ | ⟨i, last, rfl, -, -, hends, -⟩
    · simp
    · simpa using hends
  have hbracketed : Bracketed 0 (first.map Invocation.op ++ rest.map Invocation.op) 0 := by
    rw [← List.map_append, ← hsteps]
    exact h.bracketed
  have hbuilding : BracketedFrom 0 building :=
    bracketedFrom_of_bracketed hfirst hnone hfinal hbracketed
  obtain ⟨last, hfinalizes, hcalls, hreplay⟩ := exists_last hrest
  have hmade : List.Forall₂ (fun i call => callOf queries i = .ok call) plan.steps calls :=
    h.performs.imp fun _ _ => Performs.binds
  have hbinds : List.Forall₂ (fun i call => callOf queries i = .ok call) plan.steps
        (building ++ [last]) ∨
      List.Forall₂ (fun i call => callOf queries i = .ok call) plan.steps building ∧
        last = .verify := by
    rcases hcalls with rfl | ⟨rfl, rfl⟩
    · exact .inl hmade
    · exact .inr ⟨hmade, rfl⟩
  refine ⟨building, last, hbinds, hbuilds, hfinalizes, fun document hbuild => ?_⟩
  obtain ⟨f, hf, hcoherent, hbuilt, hmisuse, hopen⟩ :=
    Family.fluent_of_bracketed hbuilding plan.title false fun c hc =>
      hbuild c (List.mem_append_left _ hc)
  have hsettles := (hbuild last (by simp)).settles hfinalizes
  have hfresh : f.finalized = false := hbuilt.finalized_eq
  obtain ⟨hnotes, hblocks⟩ := Family.finalizer_notes hfinalizes hsettles f 0
  refine ⟨f, hf, hfresh, ?_, Family.finalized_of_settles hfresh hsettles 0, hnotes.trans hmisuse,
    hblocks.trans hopen⟩
  rw [hsteps, replay_of_fluent hfirst hnone hf, hreplay]

/-- **Accepted suites are read and replayed completely.** Whatever values the validator lets
through, reading does not fail, every check uses the one document source that is written, and all
calls can be made. If the steps can be built, all of them are applied in their order, and the
finalizer is called once, on the origin, with nothing noted and no block left open. -/
theorem valid_suite_replays {entries : Entries} (h : schemaErrors entries = .ok [])
    (queries : QueryEngine) (base : Option Location) (node : NodeId) :
    ∃ draft suite, Draft.read base (.object node .plain entries) = .ok draft ∧
      ofDraft? draft = some suite ∧ SuiteReadsAs base entries suite ∧
      ∀ plan ∈ suite.checks, ∃ building last, Replays queries suite.limit plan building last := by
  obtain ⟨draft, suite, hread, hsuite, hreads, hcalls⟩ :=
    (schemaErrors_eq_nil_iff.mp h).reads base node
  refine ⟨draft, suite, hread, hsuite, hreads, fun plan hplan => ?_⟩
  obtain ⟨calls, hconform⟩ := hcalls plan hplan queries
  exact hconform.replays suite.limit

/-- A check of a null document, with a block of two alternatives, an argument by name and a
finalizer. -/
def nullSuite : Entries :=
  [(.str "version", .int 1), (.str "name", .str "n"),
    (.str "checks", .list [.record [("id", .str "a"), ("document", .null),
      ("steps", .list [.str "either", .record [("is_type", .str "null")], .str "or_else",
        .record [("must_contain", .record [("path", .str "/x")])], .str "end",
        .record [("exactly", .int 1)]])]])]

/-- The null document is the one that is used, and the suite is replayed. -/
theorem valid_suite_replays_null :
    schemaErrors nullSuite = .ok [] ∧
      ∃ draft suite plan, Draft.read none (.object 0 .plain nullSuite) = .ok draft ∧
        ofDraft? draft = some suite ∧ suite.checks = [plan] ∧
        (∀ read, documentOf read plan = .ok (.ofValue .null)) ∧
        ∃ building last, Replays Query.engine suite.limit plan building last := by
  have hvalid : schemaErrors nullSuite = .ok [] := rfl
  obtain ⟨draft, suite, hread, hsuite, hsuiteReads, hreplays⟩ :=
    valid_suite_replays hvalid Query.engine none 0
  obtain ⟨_, _, hchecks, hall⟩ := hsuiteReads.checks
  cases hchecks
  obtain ⟨plan, _, ⟨_, _, hcheck, hreads⟩, hnil, hplans⟩ := List.forall₂_cons_left_iff.mp hall
  cases hcheck
  cases hnil
  refine ⟨hvalid, draft, suite, plan, hread, hsuite, hplans, ?_,
    hreplays plan (by simp [hplans])⟩
  cases hreads.source with
  | value hv _ _ hdocument =>
    cases hv
    exact hdocument
  | text hv => cases hv
  | file hv => cases hv

end Suite

end Attest

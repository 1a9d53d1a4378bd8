import Attest.Proofs.Chain.Reached
import Attest.Proofs.Suite.Logged

/-!
# Reading suites that conform

Reading a suite trusts the validator: it looks into mappings without asking what they hold, and
spreads the argument of a step over a call without asking what the call takes. For suites that
conform both are justified. Nothing is assumed about the values of documents and arguments, which
the validator does not look into either.

## Main definitions

* `Op.Spells` — the calls that an operation of a suite stands for
* `Suite.Sourced` — the one document source of a check, and the document that is made of it
* `Suite.StepReadsAs`, `Suite.ReadsAs`, `Suite.SuiteReadsAs` — steps, checks and suites as they are
  written, and as they were read

## Main results

* `Suite.spells_of_callOf` — a call is one that its operation stands for, whatever it was given
* `Suite.StepIs.reads` — a step that conforms is read and makes a call
* `Suite.Conforms.reads` — a suite that conforms is read
-/

namespace Attest

/-- The calls that an operation of a suite stands for. -/
def Op.Spells (op : Op) (call : Call) : Prop :=
  match op with
  | .either => call = .openBlock
  | .orElse => call = .nextBranch
  | .end_ => call = .closeBlock
  | .verify => call = .verify
  | .exactly => ∃ n, call = .finish .exactly n
  | .atLeast => ∃ n, call = .finish .atLeast n
  | .atMost => ∃ n, call = .finish .atMost n
  | _ => ∃ operation, call = .queue operation

/-- An operation that ends a check finalizes a chain, and every other one builds it. -/
theorem Op.Spells.sort {op : Op} {call : Call} (h : op.Spells call) :
    op.endsCheck = true ∧ call.Finalizes ∨ op.endsCheck = false ∧ call.Builds := by
  cases op with
  | verify =>
    cases h
    exact .inl ⟨rfl, trivial⟩
  | exactly | atLeast | atMost =>
    obtain ⟨n, rfl⟩ := h
    exact .inl ⟨rfl, trivial⟩
  | either | orElse | end_ =>
    cases h
    exact .inr ⟨rfl, trivial⟩
  | _ =>
    obtain ⟨operation, rfl⟩ := h
    exact .inr ⟨rfl, trivial⟩

namespace Suite

/-! ### What calls are made of -/

section Binding

variable {call : String} {args : List Value} {named : NamedArguments} {c : Call}

theorem bindNone_eq_ok {result : Call} (h : bindNone call args named result = .ok c) :
    c = result := by
  obtain ⟨_, _, h⟩ := bind_eq_ok h
  exact (Except.ok.inj h).symm

theorem bindOne_eq_ok {parameter : String} {result : Value → Except Fault Call}
    (h : bindOne call parameter args named result = .ok c) : ∃ v, result v = .ok c := by
  obtain ⟨_, _, h⟩ := bind_eq_ok h
  split at h
  · exact ⟨_, h⟩
  · cases h

theorem bindTwo_eq_ok {first second : String} {default : Option Value}
    {result : Value → Value → Except Fault Call}
    (h : bindTwo call first second default args named result = .ok c) :
    ∃ v w, result v w = .ok c := by
  obtain ⟨_, _, h⟩ := bind_eq_ok h
  split at h
  · exact ⟨_, _, h⟩
  · exact ⟨_, _, h⟩
  · cases h

theorem bindCriteria_eq_ok (h : bindCriteria args named = .ok c) :
    ∃ entries, c = .queue (.matching entries) := by
  unfold bindCriteria at h
  split at h
  · obtain ⟨entries, _, h⟩ := bind_eq_ok h
    exact ⟨entries, (Except.ok.inj h).symm⟩
  · split at h
    · cases h
    · obtain ⟨entries, _, h⟩ := bind_eq_ok h
      exact ⟨entries, (Except.ok.inj h).symm⟩
  · cases h

end Binding

/-- **A call is one that its operation stands for**, whatever the operation was given. -/
theorem spells_of_callOf {queries : QueryEngine} {i : Invocation} {call : Call}
    (h : callOf queries i = .ok call) : i.op.Spells call := by
  obtain ⟨op, args, named⟩ := i
  obtain ⟨given, _, h⟩ := bind_eq_ok h
  cases op with
  | withObjects | isNull | isBool | isNumber | isString | isArray | isObject | isEmpty
  | isNotEmpty => exact ⟨_, bindNone_eq_ok h⟩
  | either | orElse | end_ | verify => exact bindNone_eq_ok h
  | at_ | select | hasSize | hasElement | mustBe | mustNotBe | mustBeginWith | mustEndWith
  | mustMatchRegex | mustSelected | exactly | atLeast | atMost =>
    obtain ⟨v, h⟩ := bindOne_eq_ok h
    exact ⟨_, (Except.ok.inj h).symm⟩
  | isType | isOneOfTypes =>
    obtain ⟨v, h⟩ := bindOne_eq_ok h
    obtain ⟨_, _, h⟩ := bind_eq_ok h
    exact ⟨_, (Except.ok.inj h).symm⟩
  | containing | mustContain | mustNotContain =>
    obtain ⟨v, w, h⟩ := bindTwo_eq_ok h
    exact ⟨_, (Except.ok.inj h).symm⟩
  | matching =>
    obtain ⟨entries, h⟩ := bindCriteria_eq_ok h
    exact ⟨_, h⟩

/-! ### Steps -/

theorem invocationOf_op (op : Op) (v : Value) : (invocationOf op v).op = op := by
  unfold invocationOf
  split <;> rfl

theorem readStep_bare (op : Op) : Draft.readStep (.str op.name) = .ok { op := op } := by
  have hop : opOf? (.str op.name) = some op := opOf?_eq_some_iff.mpr rfl
  simp only [Draft.readStep, Draft.opNamed, hop]
  rfl

/-- **A step that conforms is read, and makes a call.** -/
theorem StepIs.reads {step : Value} {op : Op} (h : StepIs step op) :
    ∃ i, Draft.readStep step = .ok i ∧ i.op = op ∧ ∀ queries, ∃ call, Performs queries i call := by
  cases h with
  | bare hform => exact ⟨{ op := op }, readStep_bare op, rfl, fun _ => performs_of_nothing hform⟩
  | given hfits =>
    exact ⟨_, readStep_mapping (opOf?_eq_some_iff.mpr rfl), invocationOf_op .., fun _ =>
      hfits.performs⟩

/-- A step as it is written, which stands for an operation, and as it was read. -/
structure StepReadsAs (step : Value) (i : Invocation) : Prop where
  stands : StepIs step i.op
  read : Draft.readStep step = .ok i

/-- Steps that conform are read one by one. -/
theorem reads_steps {steps : List Value} {ops : List Op} (h : List.Forall₂ StepIs steps ops) :
    ∃ invocations, Draft.readSteps steps = .ok invocations ∧
      List.Forall₂ StepReadsAs steps invocations ∧
      invocations.map Invocation.op = ops ∧
      ∀ queries, ∃ calls, List.Forall₂ (Performs queries) invocations calls := by
  induction h with
  | nil => exact ⟨[], rfl, .nil, rfl, fun _ => ⟨[], .nil⟩⟩
  | cons hstep _ ih =>
    obtain ⟨i, hread, rfl, hcall⟩ := hstep.reads
    obtain ⟨invocations, hreads, hall, rfl, hcalls⟩ := ih
    refine ⟨i :: invocations, ?_, .cons ⟨hstep, hread⟩ hall, rfl, fun queries => ?_⟩
    · rw [Draft.readSteps, hread, hreads]
      rfl
    · obtain ⟨call, hcall⟩ := hcall queries
      obtain ⟨calls, hcalls⟩ := hcalls queries
      exact ⟨call :: calls, .cons hcall hcalls⟩

/-! ### Checks -/

/-- The one document source of a check, and the document that is made of it: the value as it is,
also if it is null, or the text, also if it is empty, or what the file holds. -/
inductive Sourced (base : Option Location) (entries : Entries) (plan : CheckPlan) : Prop where
  | value {v : Value} :
      Value.field? "document" entries = some v → Value.field? "document_text" entries = none →
      Value.field? "document_file" entries = none →
      (∀ read, documentOf read plan = .ok (.ofValue v)) → Sourced base entries plan
  | text {s : String} :
      Value.field? "document" entries = none →
      Value.field? "document_text" entries = some (.str s) →
      Value.field? "document_file" entries = none →
      (∀ read, documentOf read plan = .ok (.ofText s)) → Sourced base entries plan
  | file {s : String} {l : Location} :
      Value.field? "document" entries = none → Value.field? "document_text" entries = none →
      Value.field? "document_file" entries = some (.str s) →
      Draft.readLocation base (.str s) = .ok (some l) →
      (∀ read, documentOf read plan = (read l).map .ofBytes) → Sourced base entries plan

/-- A check as it is written, and as it was read. -/
structure ReadsAs (base : Option Location) (entries : Entries) (plan : CheckPlan) : Prop where
  id : Value.field? "id" entries = some (.str plan.id)
  description : entryOr "description" entries = optionalData plan.description
  document : entryOr "document" entries = plan.document
  source : Sourced base entries plan
  steps : ∃ node steps, Value.field? "steps" entries = some (.array node .list steps) ∧
    List.Forall₂ StepReadsAs steps plan.steps

/-- The calls of a check stand for operations in their order. -/
structure CallsConform (queries : QueryEngine) (steps : List Invocation) (calls : List Call) :
    Prop where
  performs : List.Forall₂ (Performs queries) steps calls
  bracketed : Bracketed 0 (steps.map Invocation.op) 0
  last : FinalizesLast (steps.map Invocation.op)

theorem entryOr_of_none {name : String} {entries : Entries}
    (h : Value.field? name entries = none) : entryOr name entries = .null := by
  rw [entryOr, h]
  rfl

theorem entryOr_of_some {name : String} {entries : Entries} {v : Value}
    (h : Value.field? name entries = some v) : entryOr name entries = v := by
  rw [entryOr, h]
  rfl

/-- The document source that a check conforms with, and its value. -/
theorem CheckConforms.sources {id : String} {entries : Entries} (h : CheckConforms id entries) :
    (∃ v, Value.field? "document" entries = some v ∧
      Value.field? "document_text" entries = none ∧
      Value.field? "document_file" entries = none) ∨
    (∃ s, Value.field? "document" entries = none ∧
      Value.field? "document_text" entries = some (.str s) ∧
      Value.field? "document_file" entries = none) ∨
    ∃ s, Value.field? "document" entries = none ∧
      Value.field? "document_text" entries = none ∧
      Value.field? "document_file" entries = some (.str s) := by
  obtain ⟨name, ⟨hname, hgiven⟩, honly⟩ := h.source
  have hother : ∀ other ∈ ["document", "document_text", "document_file"], other ≠ name →
      Value.field? other entries = none := fun other hmem hne =>
    Option.not_isSome_iff_eq_none.mp fun hsome => hne (honly other ⟨hmem, hsome⟩)
  obtain ⟨v, hv⟩ := Option.isSome_iff_exists.mp hgiven
  simp only [List.mem_cons, List.not_mem_nil, or_false] at hname
  rcases hname with rfl | rfl | rfl
  · exact .inl ⟨v, hv, hother _ (by simp) (by decide), hother _ (by simp) (by decide)⟩
  · obtain ⟨s, rfl⟩ := h.texts _ (by simp) v hv
    exact .inr (.inl ⟨s, hother _ (by simp) (by decide), hv, hother _ (by simp) (by decide)⟩)
  · obtain ⟨s, rfl⟩ := h.texts _ (by simp) v hv
    exact .inr (.inr ⟨s, hother _ (by simp) (by decide), hother _ (by simp) (by decide), hv⟩)

/-- **A check that conforms is read.** -/
theorem CheckConforms.reads {id : String} {entries : Entries} (h : CheckConforms id entries)
    (base : Option Location) (node : NodeId) :
    ∃ draft plan, Draft.readCheck base (.object node .plain entries) = .ok draft ∧
      checkOfDraft? draft = some plan ∧ ReadsAs base entries plan ∧
      ∀ queries, ∃ calls, CallsConform queries plan.steps calls := by
  obtain ⟨stepsNode, steps, hsteps, hne, ops, hops, hbracketed, hlast⟩ := h.steps
  obtain ⟨invocations, hreads, hall, rfl, hcalls⟩ := reads_steps hops
  have hdescription : ∃ description, optionalText? (entryOr "description" entries)
      = some description ∧ entryOr "description" entries = optionalData description := by
    rcases (forall_field_iff (.inl rfl)).mpr h.description with hnull | ⟨s, hs⟩
    · exact ⟨none, by rw [hnull]; rfl, hnull⟩
    · exact ⟨some s, by rw [hs]; rfl, hs⟩
  obtain ⟨description, hread, hwritten⟩ := hdescription
  -- whatever the source is, the other fields are read alike
  have hfields : ∀ file text, Draft.readLocation base (entryOr "document_file" entries) = .ok file →
      optionalText? (entryOr "document_text" entries) = some text →
      Sourced base entries {
        id, description, document := entryOr "document" entries
        documentText := text, documentFile := file, steps := invocations } →
      ∃ draft plan, Draft.readCheck base (.object node .plain entries) = .ok draft ∧
        checkOfDraft? draft = some plan ∧ ReadsAs base entries plan ∧
        ∀ queries, ∃ calls, CallsConform queries plan.steps calls := by
    intro file text hfile htext hsource
    refine ⟨{
        id := .str id
        description := entryOr "description" entries
        document := entryOr "document" entries
        documentText := entryOr "document_text" entries
        documentFile := file
        steps := invocations }, _, ?_, ?_,
      ⟨h.id.1, hwritten, rfl, hsource, stepsNode, steps, hsteps, hall⟩, fun queries =>
      (hcalls queries).imp fun _ hcalls => ⟨hcalls, hbracketed, hlast⟩⟩
    · simp only [Draft.readCheck, Draft.entriesOf, Draft.requiredEntry, h.id.1, hsteps,
        Value.elements, bind, Except.bind, hfile, hreads]
      rfl
    · simp only [checkOfDraft?, text?, hread, htext]
      rfl
  rcases h.sources with ⟨v, hv, htext, hfile⟩ | ⟨s, hv, htext, hfile⟩ | ⟨s, hv, htext, hfile⟩
  · refine hfields none none (by rw [entryOr_of_none hfile]; rfl)
      (by rw [entryOr_of_none htext]; rfl) (.value hv htext hfile fun read => ?_)
    simp only [documentOf, entryOr_of_some hv]
  · exact hfields none (some s) (by rw [entryOr_of_none hfile]; rfl)
      (by rw [entryOr_of_some htext]; rfl) (.text hv htext hfile fun _ => rfl)
  · obtain ⟨l, hl⟩ : ∃ l, Draft.readLocation base (.str s) = .ok (some l) := ⟨_, rfl⟩
    exact hfields (some l) none (by rw [entryOr_of_some hfile]; exact hl)
      (by rw [entryOr_of_none htext]; rfl) (.file hv htext hfile hl fun _ => rfl)

/-! ### Suites -/

/-- A check, whatever it is read from, with the plan that it was read as. -/
def CheckReadsAs (base : Option Location) (check : Value) (plan : CheckPlan) : Prop :=
  ∃ node entries, check = .object node .plain entries ∧ ReadsAs base entries plan

/-- Checks that conform are read one by one. -/
theorem reads_checks {checks : List Value} {ids : List String}
    (h : List.Forall₂ CheckIs checks ids) (base : Option Location) :
    ∃ drafts plans, Draft.readChecks base checks = .ok drafts ∧
      drafts.mapM checkOfDraft? = some plans ∧
      List.Forall₂ (CheckReadsAs base) checks plans ∧
      ∀ plan ∈ plans, ∀ queries, ∃ calls, CallsConform queries plan.steps calls := by
  induction h with
  | nil => exact ⟨[], [], rfl, rfl, .nil, by simp⟩
  | cons hcheck _ ih =>
    obtain @⟨node, entries, _, hconforms⟩ := hcheck
    obtain ⟨draft, plan, hread, hplan, hreads, hcalls⟩ := hconforms.reads base node
    obtain ⟨drafts, plans, hdrafts, hplans, hall, hallCalls⟩ := ih
    refine ⟨draft :: drafts, plan :: plans, ?_, ?_, .cons ⟨node, entries, rfl, hreads⟩ hall,
      List.forall_mem_cons.mpr ⟨hcalls, hallCalls⟩⟩
    · rw [Draft.readChecks, hread, hdrafts]
      rfl
    · rw [List.mapM_cons, hplan, hplans]
      rfl

theorem readLimit_mapping (node : NodeId) (fields : Entries) :
    Draft.readLimit (.object node .plain fields)
      = .ok ((Value.field? "max_value_length" fields).getD (.int Value.defaultLimit)) := by
  cases fields <;> rfl

/-- Defaults that conform set a limit, or leave it. -/
theorem reads_limit {entries : Entries}
    (h : ∀ v, Value.field? "defaults" entries = some v → DefaultsConform v) :
    ∃ limit : Int, Draft.readLimit (entryOr "defaults" entries) = .ok (.int limit) := by
  rcases (forall_field_iff (p := DefaultsConform) (.inl rfl)).mpr h with
    hnull | ⟨node, fields, hfields, _, hlength⟩
  · exact ⟨Value.defaultLimit, by rw [hnull]; rfl⟩
  · rw [hfields, readLimit_mapping]
    cases hgiven : Value.field? "max_value_length" fields with
    | none => exact ⟨Value.defaultLimit, rfl⟩
    | some length =>
      obtain ⟨n, rfl, _⟩ := hlength length hgiven
      exact ⟨n, rfl⟩

/-- A suite as it is written, and as it was read. -/
structure SuiteReadsAs (base : Option Location) (entries : Entries) (suite : Suite) : Prop where
  version : Value.field? "version" entries = some (.int suite.version)
  name : Value.field? "name" entries = some (.str suite.name)
  limit : Draft.readLimit (entryOr "defaults" entries) = .ok (.int suite.limit)
  checks : ∃ node checks, Value.field? "checks" entries = some (.array node .list checks) ∧
    List.Forall₂ (CheckReadsAs base) checks suite.checks

/-- **A suite that conforms is read**, check by check, and all calls of its checks can be made. -/
theorem Conforms.reads {entries : Entries} (h : Conforms entries) (base : Option Location)
    (node : NodeId) :
    ∃ draft suite, Draft.read base (.object node .plain entries) = .ok draft ∧
      ofDraft? draft = some suite ∧ SuiteReadsAs base entries suite ∧
      ∀ plan ∈ suite.checks, ∀ queries, ∃ calls, CallsConform queries plan.steps calls := by
  obtain ⟨version, hversion, _⟩ := h.version
  obtain ⟨name, hname, _⟩ := h.name
  obtain ⟨limit, hlimit⟩ := reads_limit h.defaults
  obtain ⟨checksNode, checks, hchecks, _, ids, hids, _⟩ := h.checks
  obtain ⟨drafts, plans, hdrafts, hplans, hall, hcalls⟩ := reads_checks hids base
  refine ⟨{ version := .int version, name := .str name, limit := .int limit, checks := drafts },
    { version, name, limit, checks := plans }, ?_, ?_,
    ⟨hversion, hname, hlimit, checksNode, checks, hchecks, hall⟩, hcalls⟩
  · simp only [Draft.read, Draft.requiredEntry, hversion, hname, hchecks, Value.elements, bind,
      Except.bind, hlimit, hdrafts]
    rfl
  · simp only [ofDraft?, int?, text?, hplans]
    rfl

end Suite

end Attest

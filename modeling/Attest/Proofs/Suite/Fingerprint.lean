import Attest.Proofs.Suite.Reading
import Attest.Proofs.Value.Writable
import Attest.Suite.Load
import Attest.Suite.Run

/-!
# Fingerprints of accepted suites

A suite is digested before its first check, and nothing is at hand there to report a fault. What is
digested is the whole of it, the documents and the arguments of all steps included, and the validator
does not look into these. So a suite that is accepted may still not run: the fingerprint asks more
of it than the validator does, and what it asks is stated here about the data that the suite is
written in.

## Main definitions

* `Suite.Digestible` — the documents, steps and numbers of a suite can be written

## Main results

* `Suite.succeeds_run_iff` — a suite is run iff its data can be written
* `Suite.accepted_suite_runs_iff` — an accepted suite is run iff its data are digestible
-/

namespace Attest

namespace Suite

/-! ### What is digested -/

variable {style : Json.Style}

theorem writable_optionalData (text : Option String) : (optionalData text).Writable style := by
  cases text <;> trivial

theorem writable_callData_iff {i : Invocation} :
    (callData i).Writable style ↔
      (∀ v ∈ i.args, v.Writable style) ∧ (Value.dict i.named).Writable style := by
  rw [callData, Value.writable_record_iff]
  simp [Value.writable_list_iff, Value.Writable]

theorem writable_checkData_iff {plan : CheckPlan} :
    (checkData plan).Writable style ↔
      plan.document.Writable style ∧ ∀ i ∈ plan.steps, (callData i).Writable style := by
  rw [checkData, Value.writable_record_iff]
  simp [Value.writable_list_iff, writable_optionalData, Value.Writable]

theorem writable_data_iff {s : Suite} :
    s.data.Writable style ↔
      (Value.int s.version).Writable style ∧ (Value.int s.limit).Writable style ∧
        ∀ plan ∈ s.checks, (checkData plan).Writable style := by
  rw [data, Value.writable_record_iff]
  simp [Value.writable_list_iff, Value.writable_record_iff, Value.Writable]

/-- **A suite is run iff it has a fingerprint**, which is to say that its data can be written. No
check keeps it from being run, whatever comes of the checks. -/
theorem succeeds_run_iff {s : Suite} {host : Host} {runId : String} {start stop : Instant} :
    Succeeds (s.run host runId start stop) ↔ s.data.Writable .canonical := by
  have hhash : Succeeds s.hash ↔ s.data.Writable .canonical :=
    succeeds_map_iff.trans Value.succeeds_writeAt_iff
  rw [← hhash, run, succeeds_return_iff, recorder, succeeds_return_iff]

/-! ### What is written -/

/-- What holds of the members of one list holds of those of another that go with them. -/
theorem forall_mem_iff_of_forall₂ {α β : Type} {p : α → Prop} {q : β → Prop} {as : List α}
    {bs : List β} (h : List.Forall₂ (fun a b => q b ↔ p a) as bs) :
    (∀ b ∈ bs, q b) ↔ ∀ a ∈ as, p a := by
  induction h with
  | nil => simp
  | cons hab _ ih => rw [List.forall_mem_cons, List.forall_mem_cons, hab, ih]

/-- The parts of a check that are digested as they are written. -/
def CheckDigestible (check : Value) : Prop :=
  ∀ node entries, check = .object node .plain entries →
    (entryOr "document" entries).Writable .canonical ∧
      (entryOr "steps" entries).Writable .canonical

/-- The parts of a suite that are digested as they are written: its numbers, and the documents and
steps of its checks. -/
structure Digestible (entries : Entries) : Prop where
  version : (entryOr "version" entries).Writable .canonical
  limit : ∀ node fields, Value.field? "defaults" entries = some (.object node .plain fields) →
    (entryOr "max_value_length" fields).Writable .canonical
  checks : ∀ node checks, Value.field? "checks" entries = some (.array node .list checks) →
    ∀ check ∈ checks, CheckDigestible check

theorem writable_dict_nil : (Value.dict []).Writable style :=
  ⟨fun _ => .inl (Nat.zero_le 1), trivial⟩

/-- An argument is digested as it is written, also if it was spread over a call. -/
theorem writable_invocationOf_iff {op : Op} {v : Value} (h : ArgumentFits op v) :
    (callData (invocationOf op v)).Writable style ↔ v.Writable style := by
  rw [writable_callData_iff]
  unfold invocationOf
  split
  case h_1 v _ _ hform =>
    obtain rfl : v = .null := by simpa only [ArgumentFits, hform] using h
    exact iff_of_true ⟨by simp, writable_dict_nil⟩ trivial
  case h_2 => exact (and_iff_left writable_dict_nil).trans Value.writableItems_iff.symm
  case h_3 => exact and_iff_right (by simp)
  case h_4 => exact (and_iff_left writable_dict_nil).trans List.forall_mem_singleton

/-- So is a step. -/
theorem StepIs.writable_iff {step : Value} {op : Op} {i : Invocation} (h : StepIs step op)
    (hread : Draft.readStep step = .ok i) :
    (callData i).Writable style ↔ step.Writable style := by
  cases h with
  | bare =>
    obtain rfl := Except.ok.inj ((readStep_bare op).symm.trans hread)
    exact iff_of_true (writable_callData_iff.mpr ⟨by simp, writable_dict_nil⟩) trivial
  | given hfits =>
    obtain rfl :=
      Except.ok.inj ((readStep_mapping (opOf?_eq_some_iff.mpr rfl)).symm.trans hread)
    rw [writable_invocationOf_iff hfits,
      Value.writable_texts_iff (List.forall_mem_singleton.mpr ⟨op.name, rfl⟩),
      List.forall_mem_singleton]

variable {base : Option Location} {entries : Entries}

/-- So is what a check says. -/
theorem CheckReadsAs.writable_iff {check : Value} {plan : CheckPlan}
    (h : CheckReadsAs base check plan) :
    (checkData plan).Writable .canonical ↔ CheckDigestible check := by
  obtain ⟨node, entries, rfl, hreads⟩ := h
  obtain ⟨stepsNode, steps, hsteps, hall⟩ := hreads.steps
  have hcalls : (∀ i ∈ plan.steps, (callData i).Writable .canonical) ↔
      ∀ step ∈ steps, step.Writable .canonical :=
    forall_mem_iff_of_forall₂ (hall.imp fun _ _ hstep => hstep.stands.writable_iff hstep.read)
  rw [writable_checkData_iff, ← hreads.document, hcalls, ← Value.writableItems_iff]
  constructor
  · rintro ⟨hdocument, hwritable⟩ _ _ ⟨⟩
    rw [entryOr_of_some hsteps]
    exact ⟨hdocument, hwritable⟩
  · intro h
    obtain ⟨hdocument, hwritable⟩ := h node entries rfl
    rw [entryOr_of_some hsteps] at hwritable
    exact ⟨hdocument, hwritable⟩

/-- The limit that was read is the one that is written, if there is one. -/
theorem writable_limit_iff {limit : Int}
    (h : ∀ v, Value.field? "defaults" entries = some v → DefaultsConform v)
    (hlimit : Draft.readLimit (entryOr "defaults" entries) = .ok (.int limit)) :
    (Value.int limit).Writable .canonical ↔
      ∀ node fields, Value.field? "defaults" entries = some (.object node .plain fields) →
        (entryOr "max_value_length" fields).Writable .canonical := by
  have hdefault : (Value.int Value.defaultLimit).Writable .canonical :=
    lt_digitBound (by decide)
  rcases (forall_field_iff (p := DefaultsConform) (.inl rfl)).mpr h with
    hnull | ⟨node, fields, hfields, _⟩
  · rw [hnull] at hlimit
    cases Except.ok.inj hlimit
    refine iff_of_true hdefault fun node fields hgiven => ?_
    rw [entryOr_of_some hgiven] at hnull
    cases hnull
  · have hgiven : Value.field? "defaults" entries = some (.object node .plain fields) :=
      (entryOr_eq_iff (by simp)).mp hfields
    rw [hfields, readLimit_mapping] at hlimit
    have hwritten : ((Value.field? "max_value_length" fields).getD
        (.int Value.defaultLimit)).Writable .canonical ↔
          (entryOr "max_value_length" fields).Writable .canonical := by
      unfold entryOr
      cases Value.field? "max_value_length" fields with
      | none => exact iff_of_true hdefault trivial
      | some length => exact Iff.rfl
    rw [← Except.ok.inj hlimit, hwritten, hgiven]
    refine ⟨?_, fun h => h node fields rfl⟩
    rintro h _ _ ⟨⟩
    exact h

/-- **What is digested is what is written**, but for a limit that is not. -/
theorem SuiteReadsAs.writable_iff {suite : Suite} (h : SuiteReadsAs base entries suite)
    (hdefaults : ∀ v, Value.field? "defaults" entries = some v → DefaultsConform v) :
    suite.data.Writable .canonical ↔ Digestible entries := by
  obtain ⟨node, checks, hchecks, hall⟩ := h.checks
  have hplans : (∀ plan ∈ suite.checks, (checkData plan).Writable .canonical) ↔
      ∀ check ∈ checks, CheckDigestible check :=
    forall_mem_iff_of_forall₂ (hall.imp fun _ _ hcheck => hcheck.writable_iff)
  rw [writable_data_iff, writable_limit_iff hdefaults h.limit, hplans]
  constructor
  · rintro ⟨hversion, hlimit, hwritable⟩
    refine ⟨by rw [entryOr_of_some h.version]; exact hversion, hlimit, fun _ _ hgiven => ?_⟩
    cases hgiven.symm.trans hchecks
    exact hwritable
  · rintro ⟨hversion, hlimit, hwritable⟩
    rw [entryOr_of_some h.version] at hversion
    exact ⟨hversion, hlimit, hwritable node checks hchecks⟩

/-- **An accepted suite is run iff what it says is digestible.** -/
theorem accepted_suite_runs_iff (h : schemaErrors entries = .ok []) (source : String)
    (base : Option Location) (node : NodeId) :
    ∃ suite, ofData source base (.object node .plain entries) = .ok (.accepted suite) ∧
      ∀ host runId start stop,
        Succeeds (suite.run host runId start stop) ↔ Digestible entries := by
  have hconforms := schemaErrors_eq_nil_iff.mp h
  obtain ⟨draft, suite, hread, hsuite, hreads, _⟩ := hconforms.reads base node
  refine ⟨suite, ?_, fun host runId start stop => ?_⟩
  · simp only [ofData, h, hread, hsuite, bind, Except.bind]
    rfl
  · exact succeeds_run_iff.trans (hreads.writable_iff hconforms.defaults)

/-- A check of a document with numbers for keys, one of them a truth value, and with a date. -/
def numberedSuite : Entries :=
  [(.str "version", .int 1), (.str "name", .str "n"),
    (.str "checks", .list [.record [("id", .str "a"),
      ("document", .dict [(.int 2, .date ⟨2024, 1, 31⟩), (.bool true, .str "one")]),
      ("steps", .list [.record [("matching", .dict [(.null, .int 1)])]])]])]

/-- Keys that have an order are digested, and values that are not JSON. -/
theorem accepted_suite_runs_numbered :
    schemaErrors numberedSuite = .ok [] ∧
      ∃ suite, ofData "yaml" none (.object 0 .plain numberedSuite) = .ok (.accepted suite) ∧
        ∀ host runId start stop, Succeeds (suite.run host runId start stop) := by
  have hvalid : schemaErrors numberedSuite = .ok [] := rfl
  obtain ⟨suite, hload, hruns⟩ := accepted_suite_runs_iff hvalid "yaml" none 0
  have hint : ∀ n : Int, n.natAbs < 1000 → (Value.int n).Writable .canonical :=
    fun _ => lt_digitBound
  have hdocument : (Value.dict [(.int 2, .date ⟨2024, 1, 31⟩),
      (.bool true, .str "one")]).Writable .canonical := by
    refine (Value.writable_sorted_iff rfl).mpr ⟨.inr (.inl ?_), ?_⟩
    · have htwo : (Value.int 2).Keyed := lt_digitBound (by decide)
      simpa [Value.keySort?, Value.Keyed] using htwo
    · simp [Value.Writable, Value.Legible, Json.Style.canonical]
  have hsteps : (Value.list [.record [("matching", .dict [(.null, .int 1)])]]).Writable
      .canonical := by
    simp only [Value.writable_list_iff, Value.writable_record_iff, List.forall_mem_singleton]
    refine (Value.writable_sorted_iff rfl).mpr ⟨.inr (.inr rfl), ?_⟩
    simpa using hint 1 (by decide)
  refine ⟨hvalid, suite, hload, fun host runId start stop =>
    (hruns host runId start stop).mpr ⟨hint 1 (by decide), ?_, ?_⟩⟩
  · rintro _ _ ⟨⟩
  · rintro _ _ ⟨⟩ check hcheck _ _ rfl
    cases List.mem_singleton.mp hcheck
    exact ⟨hdocument, hsteps⟩

/-- A check of a document with a number and a string for keys. -/
def mixedSuite : Entries :=
  [(.str "version", .int 1), (.str "name", .str "s"),
    (.str "checks", .list [.record [("id", .str "a"),
      ("document", .dict [(.int 1, .str "one"), (.str "two", .int 2)]),
      ("steps", .list [.str "is_object"])]])]

/-- **Not every accepted suite can be run**, whatever the files hold. -/
theorem accepted_suite_not_run :
    ∃ suite, ofData "yaml" none (.object 0 .plain mixedSuite) = .ok (.accepted suite) ∧
      ∀ host runId start stop, ¬ Succeeds (suite.run host runId start stop) :=
  ⟨_, rfl, fun _ _ _ _ => not_succeeds_iff.mpr ⟨_, rfl⟩⟩

end Suite

end Attest

import Attest.Proofs.Json.Canonical
import Attest.Proofs.Suite.Fingerprint

/-!
# What a fingerprint identifies

A suite is digested as the canonical text of its data. That text identifies the suite up to the
order of keys in its documents and arguments: suites that differ in anything else, be it a field, a
step, an argument or a value in a document, have different texts. What the digest makes of the text
is another matter, and only one direction of the above goes over to it.

## Main definitions

* `Suite.Alike` — suites that are the same up to the order of keys, field by field
* `Suite.Exact` — suites with exact documents and arguments

## Main results

* `Suite.reordered_data_iff` — suites are alike iff their data are the same up to the order of keys
* `Suite.fingerprint_identifies` — suites are digested as one text iff they are alike
-/

namespace Attest

/-! ### Records -/

namespace Value

/-- Records with the same names are compared value by value. -/
theorem reordered_record_iff {fields others : List (String × Value)}
    (hnames : fields.map Prod.fst = others.map Prod.fst) (hnodup : (fields.map Prod.fst).Nodup) :
    (record fields).Reordered (record others) ↔
      List.Forall₂ (fun e o => e.2.Reordered o.2) fields others := by
  rw [record_eq, record_eq, reordered_dict_iff, reorderedEntries_iff_forall₂
    (by rw [fst_entries, fst_entries, hnames]) (nodup_entries_iff.mpr hnodup),
    List.forall₂_map_left_iff, List.forall₂_map_right_iff]
  rfl

theorem precise_record_iff {fields : List (String × Value)} :
    (record fields).Precise ↔ (fields.map Prod.fst).Nodup ∧ ∀ e ∈ fields, e.2.Precise := by
  rw [record_eq, precise_dict_iff, List.forall_mem_map, ← nodup_entries_iff]
  refine and_congr_left fun _ => ⟨fun h => h.nodup, fun h => ⟨?_, h⟩⟩
  rw [fst_entries]
  exact List.forall_mem_map.mpr fun s _ => ⟨s, rfl⟩

end Value

namespace Suite

/-! ### Suites up to the order of keys -/

/-- The same operation with the same arguments, up to the order of keys in these. -/
structure CallAlike (i j : Invocation) : Prop where
  op : i.op = j.op
  args : List.Forall₂ Value.Reordered i.args j.args
  named : Value.ReorderedEntries i.named j.named

/-- Checks that are the same up to the order of keys in documents and arguments. -/
structure PlanAlike (c d : CheckPlan) : Prop where
  id : c.id = d.id
  description : c.description = d.description
  document : c.document.Reordered d.document
  documentText : c.documentText = d.documentText
  documentFile : c.documentFile.map Location.text = d.documentFile.map Location.text
  steps : List.Forall₂ CallAlike c.steps d.steps

/-- Suites that are the same up to the order of keys in documents and arguments. -/
structure Alike (s t : Suite) : Prop where
  version : s.version = t.version
  name : s.name = t.name
  limit : s.limit = t.limit
  checks : List.Forall₂ PlanAlike s.checks t.checks

theorem reordered_str_iff {a b : String} : (Value.str a).Reordered (.str b) ↔ a = b := by
  simp [Value.Reordered, eq_comm]

theorem reordered_int_iff {m n : Int} : (Value.int m).Reordered (.int n) ↔ m = n := by
  simp [Value.Reordered, eq_comm]

theorem reordered_limit_iff {m n : Int} :
    (Value.record [("max_value_length", .int m)]).Reordered
      (Value.record [("max_value_length", .int n)]) ↔ m = n := by
  rw [Value.reordered_record_iff (by rfl) (by simp)]
  simp only [List.forall₂_cons, List.forall₂_nil_left_iff, reordered_int_iff, and_true]

theorem reordered_optionalData_iff {a b : Option String} :
    (optionalData a).Reordered (optionalData b) ↔ a = b := by
  cases a <;> cases b <;> simp [optionalData, Value.Reordered, eq_comm]

/-- The name of an operation says which it is. -/
theorem op_name_inj {a b : Op} : a.name = b.name ↔ a = b := by
  constructor
  · intro h
    have hop := opOf?_eq_some_iff.mpr (congrArg Value.str h)
    exact Option.some.inj ((opOf?_eq_some_iff.mpr rfl).symm.trans hop)
  · exact congrArg Op.name

theorem reordered_callData_iff {i j : Invocation} :
    (callData i).Reordered (callData j) ↔ CallAlike i j := by
  rw [callData, callData, Value.reordered_record_iff (by rfl) (by simp)]
  simp only [List.forall₂_cons, List.forall₂_nil_left_iff, Value.reordered_list_iff,
    Value.reordered_dict_iff, reordered_str_iff, op_name_inj, and_true]
  constructor
  · rintro ⟨hop, hargs, hnamed⟩
    exact ⟨hop, hargs, hnamed⟩
  · intro h
    exact ⟨h.op, h.args, h.named⟩

theorem reordered_checkData_iff {c d : CheckPlan} :
    (checkData c).Reordered (checkData d) ↔ PlanAlike c d := by
  rw [checkData, checkData, Value.reordered_record_iff (by rfl) (by simp)]
  simp only [List.forall₂_cons, List.forall₂_nil_left_iff, Value.reordered_list_iff,
    List.forall₂_map_left_iff, List.forall₂_map_right_iff, reordered_callData_iff,
    reordered_str_iff, reordered_optionalData_iff, and_true]
  constructor
  · rintro ⟨hid, hdescription, hdocument, htext, hfile, hsteps⟩
    exact ⟨hid, hdescription, hdocument, htext, hfile, hsteps⟩
  · intro h
    exact ⟨h.id, h.description, h.document, h.documentText, h.documentFile, h.steps⟩

/-- **Suites are alike iff their data are the same up to the order of keys.** -/
theorem reordered_data_iff {s t : Suite} : s.data.Reordered t.data ↔ Alike s t := by
  rw [data, data, Value.reordered_record_iff (by rfl) (by simp)]
  simp only [List.forall₂_cons, List.forall₂_nil_left_iff, Value.reordered_list_iff,
    List.forall₂_map_left_iff, List.forall₂_map_right_iff, reordered_checkData_iff,
    reordered_str_iff, reordered_int_iff, reordered_limit_iff, and_true]
  constructor
  · rintro ⟨hversion, hname, hlimit, hchecks⟩
    exact ⟨hversion, hname, hlimit, hchecks⟩
  · intro h
    exact ⟨h.version, h.name, h.limit, h.checks⟩

/-! ### Exact suites -/

/-- The documents and arguments of the suite are exact. -/
structure Exact (s : Suite) : Prop where
  documents : ∀ c ∈ s.checks, c.document.Exact
  args : ∀ c ∈ s.checks, ∀ i ∈ c.steps, ∀ v ∈ i.args, v.Exact
  named : ∀ c ∈ s.checks, ∀ i ∈ c.steps, (Value.dict i.named).Exact

theorem precise_str (s : String) : (Value.str s).Precise := ⟨trivial, trivial, trivial⟩

theorem precise_int (n : Int) : (Value.int n).Precise := ⟨trivial, trivial, trivial⟩

theorem precise_optionalData (text : Option String) : (optionalData text).Precise := by
  cases text with
  | none => exact ⟨trivial, trivial, trivial⟩
  | some s => exact precise_str s

theorem Exact.precise_data {s : Suite} (h : s.Exact) : s.data.Precise := by
  have hcall : ∀ c ∈ s.checks, ∀ i ∈ c.steps, (callData i).Precise := by
    intro c hc i hi
    refine Value.precise_record_iff.mpr ⟨by simp, ?_⟩
    simp only [List.forall_mem_cons]
    exact ⟨precise_str _, Value.precise_list_iff.mpr fun v hv => (h.args c hc i hi v hv).precise,
      (h.named c hc i hi).precise, List.forall_mem_nil _⟩
  have hcheck : ∀ c ∈ s.checks, (checkData c).Precise := by
    intro c hc
    refine Value.precise_record_iff.mpr ⟨by simp, ?_⟩
    simp only [List.forall_mem_cons]
    exact ⟨precise_str _, precise_optionalData _, (h.documents c hc).precise,
      precise_optionalData _, precise_optionalData _,
      Value.precise_list_iff.mpr (List.forall_mem_map.mpr (hcall c hc)), List.forall_mem_nil _⟩
  refine Value.precise_record_iff.mpr ⟨by simp, ?_⟩
  simp only [List.forall_mem_cons]
  refine ⟨precise_int _, precise_str _, Value.precise_record_iff.mpr ⟨by simp, ?_⟩,
    Value.precise_list_iff.mpr (List.forall_mem_map.mpr hcheck), List.forall_mem_nil _⟩
  exact List.forall_mem_singleton.mpr (precise_int _)

/-- Of an exact suite, nothing but its own numbers can keep it from being digested. -/
theorem Exact.succeeds_fingerprintText_iff {s : Suite} (h : s.Exact) :
    Succeeds (fingerprintText s.data) ↔
      s.version.natAbs < digitBound ∧ s.limit.natAbs < digitBound := by
  have hchecks : ∀ c ∈ s.checks, (checkData c).Writable .canonical := fun c hc =>
    writable_checkData_iff.mpr ⟨(h.documents c hc).shown.writable, fun i hi =>
      writable_callData_iff.mpr ⟨fun v hv => (h.args c hc i hi v hv).shown.writable,
        (h.named c hc i hi).shown.writable⟩⟩
  have hwritable : Succeeds (fingerprintText s.data) ↔ s.data.Writable .canonical :=
    Value.succeeds_writeAt_iff
  rw [hwritable, writable_data_iff]
  exact and_congr_right fun _ => and_iff_left hchecks

/-- **A fingerprint identifies a suite up to the order of keys.** An exact suite is digested unless
its version or its limit has no text. The texts that two of them are digested as are the same iff
their data are the same up to the order of keys, and that is so iff the suites are alike field by
field; then they have one fingerprint, or none. -/
theorem fingerprint_identifies {s t : Suite} (hs : s.Exact) (ht : t.Exact) :
    (Succeeds (fingerprintText s.data) ↔
      s.version.natAbs < digitBound ∧ s.limit.natAbs < digitBound) ∧
    (∀ a b, fingerprintText s.data = .ok a → fingerprintText t.data = .ok b →
      (a = b ↔ s.data.Reordered t.data)) ∧
    (s.data.Reordered t.data ↔ Alike s t) ∧
    (s.data.Reordered t.data →
      fingerprintText s.data = fingerprintText t.data ∧ s.hash = t.hash) := by
  refine ⟨hs.succeeds_fingerprintText_iff, fun a b ha hb => ?_, reordered_data_iff, fun h => ?_⟩
  · exact Json.canonical_eq_iff hs.precise_data ht.precise_data ha hb
  · have htext : fingerprintText s.data = fingerprintText t.data :=
      Json.write_congr hs.precise_data ht.precise_data h
    exact ⟨htext, by rw [hash, hash, fingerprint, fingerprint, htext]⟩

/-- A suite with one check, about a document that is looked for in itself. -/
def suiteAbout (v : Value) : Suite where
  version := 1
  name := "n"
  checks := [{ id := "a", document := v, steps := [{ op := .hasElement, args := [v] }] }]

theorem exact_suiteAbout {v : Value} (h : v.Exact) : (suiteAbout v).Exact where
  documents := List.forall_mem_singleton.mpr h
  args := List.forall_mem_singleton.mpr (List.forall_mem_singleton.mpr
    (List.forall_mem_singleton.mpr h))
  named := List.forall_mem_singleton.mpr (List.forall_mem_singleton.mpr
    ⟨trivial, ⟨List.nodup_nil, trivial⟩, trivial⟩)

theorem alike_suiteAbout_iff {v w : Value} :
    Alike (suiteAbout v) (suiteAbout w) ↔ v.Reordered w := by
  constructor
  · intro h
    obtain ⟨hplan, -⟩ := List.forall₂_cons.mp h.checks
    exact hplan.document
  · intro h
    have hcall : CallAlike { op := .hasElement, args := [v] } { op := .hasElement, args := [w] } :=
      ⟨rfl, .cons h .nil, rfl⟩
    exact ⟨rfl, rfl, rfl, .cons ⟨rfl, rfl, h, rfl, rfl, .cons hcall .nil⟩ .nil⟩

/-- Keys in another order on two levels, under characters that are escaped; and a truth value, a
number and a string that look alike. -/
theorem fingerprint_identifies_reordered :
    let v := Value.dict [(.str "é", .list [.bool true, .int 1]),
      (.str "\"", .dict [(.str "😀", .null), (.str "", .str "1")])]
    let w := Value.dict [(.str "\"", .dict [(.str "", .str "1"), (.str "😀", .null)]),
      (.str "é", .list [.bool true, .int 1])]
    (suiteAbout v).Exact ∧ (suiteAbout w).Exact ∧
      fingerprintText (suiteAbout v).data = fingerprintText (suiteAbout w).data ∧
      (suiteAbout v).hash = (suiteAbout w).hash ∧
      ∀ a b, fingerprintText (suiteAbout (.bool true)).data = .ok a →
        fingerprintText (suiteAbout (.int 1)).data = .ok b → a ≠ b := by
  intro v w
  have hone : (1 : Int).natAbs < digitBound := lt_digitBound (by decide)
  have hv : v.Exact :=
    { shown := ⟨⟨_, rfl⟩, ⟨trivial, hone, trivial⟩, ⟨_, rfl⟩,
        ⟨⟨_, rfl⟩, trivial, ⟨_, rfl⟩, trivial, trivial⟩, trivial⟩
      wellFormed := by simp [v, Value.dict, Value.list, Value.WellFormed, Value.WellFormedItems,
        Value.WellFormedEntries]
      noFloats := ⟨⟨trivial, trivial, trivial⟩, ⟨trivial, trivial, trivial⟩, trivial⟩ }
  have hw : w.Exact :=
    { shown := ⟨⟨_, rfl⟩, ⟨⟨_, rfl⟩, trivial, ⟨_, rfl⟩, trivial, trivial⟩, ⟨_, rfl⟩,
        ⟨trivial, hone, trivial⟩, trivial⟩
      wellFormed := by simp [w, Value.dict, Value.list, Value.WellFormed, Value.WellFormedItems,
        Value.WellFormedEntries]
      noFloats := ⟨⟨trivial, trivial, trivial⟩, ⟨trivial, trivial, trivial⟩, trivial⟩ }
  have hreordered : v.Reordered w := by
    have hlist : (Value.list [.bool true, .int 1]).Reordered (.list [.bool true, .int 1]) :=
      Value.reordered_list_iff.mpr (.cons rfl (.cons rfl .nil))
    have hinner : (Value.dict [(.str "😀", .null), (.str "", .str "1")]).Reordered
        (.dict [(.str "", .str "1"), (.str "😀", .null)]) :=
      Value.reordered_dict_iff.mpr ⟨_, [_], [], rfl, rfl, _, [], [], rfl, rfl, rfl⟩
    exact Value.reordered_dict_iff.mpr
      ⟨_, [_], [], rfl, hlist, _, [], [], rfl, hinner, rfl⟩
  obtain ⟨-, -, halike, hsame⟩ :=
    fingerprint_identifies (exact_suiteAbout hv) (exact_suiteAbout hw)
  obtain ⟨htext, hhash⟩ := hsame (halike.mpr (alike_suiteAbout_iff.mpr hreordered))
  have htrue : (Value.bool true).Exact := ⟨trivial, trivial, trivial⟩
  have hnumber : (Value.int 1).Exact := ⟨hone, trivial, trivial⟩
  obtain ⟨-, hdiffer, halike, -⟩ :=
    fingerprint_identifies (exact_suiteAbout htrue) (exact_suiteAbout hnumber)
  refine ⟨exact_suiteAbout hv, exact_suiteAbout hw, htext, hhash, fun a b ha hb hab => ?_⟩
  have hnever : (Value.bool true).Reordered (.int 1) :=
    alike_suiteAbout_iff.mp (halike.mp ((hdiffer a b ha hb).mp hab))
  cases hnever

end Suite

end Attest

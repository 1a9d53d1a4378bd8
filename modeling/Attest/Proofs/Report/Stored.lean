import Attest.Proofs.Json.RoundTrip
import Attest.Proofs.Report.Bookkeeping

/-!
# Reports that were written

A report is written if its version and its counts are not too long, and what is read from its text
is the report again: only its duration becomes the number that its digits are read as. Whoever reads
a report sees the status, the counts and the outcomes that it had.

## Main results

* `Json.reread_record` — a record is read again field by field
* `Report.reread_data` — what is read from the data of a report
* `Report.succeeds_json` — reports can be written
* `Report.shows_of_json` — it shows the report
-/

namespace Attest

/-! ### Records -/

namespace Json

/-- **A record is read again field by field**, if no name is there twice. -/
theorem reread_record {fields : List (String × Value)} {g : Value → Value}
    (hnodup : (fields.map Prod.fst).Nodup) (h : ∀ f ∈ fields, reread f.2 = .ok (g f.2)) :
    reread (.record fields) = .ok (.record (fields.map fun f => (f.1, g f.2))) := by
  have hentries : rereadEntries (fields.map Value.entry)
      = .ok ((fields.map fun f => (f.1, g f.2)).map Value.entry) := by
    clear hnodup
    induction fields with
    | nil => rfl
    | cons f rest ih =>
      obtain ⟨hf, hrest⟩ := List.forall_mem_cons.mp h
      rw [List.map_cons, Value.entry, rereadEntries_cons, hf, ih hrest]
      rfl
  have hnames : (fields.map fun f => (f.1, g f.2)).map Prod.fst = fields.map Prod.fst := by
    rw [List.map_map]
    rfl
  have hkeys : ∀ k ∈ ((fields.map fun f => (f.1, g f.2)).map Value.entry).map Prod.fst,
      ∃ s, k = .str s := by
    rw [Value.fst_entries]
    exact List.forall_mem_map.mpr fun s _ => ⟨s, rfl⟩
  have hpairs := Value.ofPairs_of_nodup hkeys (Value.nodup_entries_iff.mpr (hnames ▸ hnodup))
  rw [Value.record_eq, Value.record_eq, Value.dict, reread, hentries]
  exact congrArg (fun es => Except.ok (Value.dict es)) hpairs

theorem reread_list {items : List Value} (h : ∀ v ∈ items, reread v = .ok v) :
    reread (.list items) = .ok (.list items) := by
  have hitems : rereadItems items = .ok items := by
    induction items with
    | nil => rfl
    | cons v rest ih =>
      obtain ⟨hv, hrest⟩ := List.forall_mem_cons.mp h
      rw [rereadItems_cons, hv, ih hrest]
      rfl
  rw [Value.list, reread, hitems]
  rfl

/-- A record whose fields are read as they are is read as it is. -/
theorem reread_record_self {fields : List (String × Value)} (hnodup : (fields.map Prod.fst).Nodup)
    (h : ∀ f ∈ fields, reread f.2 = .ok f.2) : reread (.record fields) = .ok (.record fields) := by
  have hread := reread_record (g := id) hnodup h
  rwa [show (fields.map fun f => (f.1, id f.2)) = fields from List.map_id _] at hread

end Json

/-! ### Reports -/

theorem reread_textList (texts : List String) :
    Json.reread (textList texts) = .ok (textList texts) :=
  Json.reread_list (List.forall_mem_map.mpr fun _ _ => rfl)

theorem reread_optionalText (s : Option String) :
    Json.reread (optionalText s) = .ok (optionalText s) := by
  cases s <;> rfl

theorem Outcome.reread_data (o : Outcome) : Json.reread o.data = .ok o.data := by
  refine Json.reread_record_self ?_ ?_
  · show ["check_id", "description", "passed", "reason", "trace", "candidates"].Nodup
    decide
  · simp only [List.forall_mem_cons]
    exact ⟨reread_optionalText _, rfl, rfl, rfl, reread_textList _, reread_textList _,
      List.forall_mem_nil _⟩

namespace Report

/-- The number that is read from the text of a number; nothing else changes. -/
def readNumber : Value → Value
  | .float x => .float (Json.rereadNumber x)
  | v => v

/-- The report with the duration that is read from its text. -/
def stored (r : Report) : Report := { r with duration := r.duration.map Json.rereadNumber }

theorem reread_finite {x : Double} (h : x.IsFinite) :
    Json.reread (.float x) = .ok (.float (Json.rereadNumber x)) := by
  cases x with
  | finite => rfl
  | infinite | nan => exact h.elim

theorem readNumber_optionalText (s : Option String) :
    readNumber (optionalText s) = optionalText s := by
  cases s <;> rfl

/-- **What is read from the data of a report** is the report, with the duration that its digits are
read as. -/
theorem reread_data {r : Report} (hfinite : ∀ x ∈ r.duration, x.IsFinite) :
    Json.reread r.data = .ok r.stored.data := by
  have hduration : Json.reread ((r.duration.map Value.float).getD .null)
      = .ok (readNumber ((r.duration.map Value.float).getD .null)) := by
    cases hd : r.duration with
    | none => rfl
    | some x => exact reread_finite (hfinite x hd)
  have hstored : readNumber ((r.duration.map Value.float).getD .null)
      = (r.stored.duration.map Value.float).getD .null := by
    rw [stored]
    cases r.duration <;> rfl
  have hsummary : Json.reread (.record [("total", .int r.total), ("passed", .int r.passed),
      ("failed", .int r.failed)]) = .ok (.record [("total", .int r.total),
        ("passed", .int r.passed), ("failed", .int r.failed)]) := by
    refine Json.reread_record_self ?_ ?_
    · show ["total", "passed", "failed"].Nodup
      decide
    · simp only [List.forall_mem_cons]
      exact ⟨rfl, rfl, rfl, List.forall_mem_nil _⟩
  have houtcomes : Json.reread (.list (r.outcomes.map Outcome.data))
      = .ok (.list (r.outcomes.map Outcome.data)) :=
    Json.reread_list (List.forall_mem_map.mpr fun o _ => o.reread_data)
  rw [data]
  refine (Json.reread_record (g := readNumber) ?_ ?_).trans (congrArg Except.ok ?_)
  · show ["run_id", "started_at", "ended_at", "duration_ms", "suite_name", "suite_version",
      "suite_hash", "status", "summary", "outcomes"].Nodup
    decide
  · simp only [List.forall_mem_cons, readNumber_optionalText]
    exact ⟨rfl, rfl, reread_optionalText _, hduration, rfl, rfl, rfl, rfl, hsummary, houtcomes,
      List.forall_mem_nil _⟩
  · simp only [List.map_cons, List.map_nil, readNumber_optionalText, hstored]
    rfl

/-! ### Texts of reports -/

theorem plain_textList {p : Int → Prop} (texts : List String) : (textList texts).Plain p :=
  Value.plainItems_iff.mpr (List.forall_mem_map.mpr fun _ _ => trivial)

theorem plain_optionalText {p : Int → Prop} (s : Option String) : (optionalText s).Plain p := by
  cases s <;> trivial

theorem plain_record {p : Int → Prop} {fields : List (String × Value)}
    (h : ∀ f ∈ fields, f.2.Plain p) : (Value.record fields).Plain p :=
  Value.plainEntries_iff.mpr (List.forall_mem_map.mpr fun f hf => ⟨⟨f.1, rfl⟩, h f hf⟩)

theorem plain_outcome {p : Int → Prop} (o : Outcome) : o.data.Plain p :=
  plain_record (by
    simp only [List.forall_mem_cons]
    exact ⟨plain_optionalText _, trivial, trivial, trivial, plain_textList _, plain_textList _,
      List.forall_mem_nil _⟩)

/-- A report is JSON, with four integers. -/
theorem plain_data {p : Int → Prop} {r : Report} (hversion : p r.suiteVersion) (htotal : p r.total)
    (hpassed : p r.passed) (hfailed : p r.failed) : r.data.Plain p := by
  have hduration : ((r.duration.map Value.float).getD .null).Plain p := by
    cases r.duration <;> trivial
  have hsummary : (Value.record [("total", .int r.total), ("passed", .int r.passed),
      ("failed", .int r.failed)]).Plain p :=
    plain_record (by
      simp only [List.forall_mem_cons]
      exact ⟨htotal, hpassed, hfailed, List.forall_mem_nil _⟩)
  have houtcomes : (Value.list (r.outcomes.map Outcome.data)).Plain p :=
    Value.plainItems_iff.mpr (List.forall_mem_map.mpr fun o _ => plain_outcome o)
  refine plain_record ?_
  simp only [List.forall_mem_cons]
  exact ⟨trivial, trivial, plain_optionalText _, hduration, trivial, hversion, trivial, trivial,
    hsummary, houtcomes, List.forall_mem_nil _⟩

/-- **A report can be written** if its version and its counts are not too long. -/
theorem succeeds_json {r : Report} (hversion : r.suiteVersion.natAbs < digitBound)
    (htotal : r.total < digitBound) (hpassed : r.passed < digitBound)
    (hfailed : r.failed < digitBound) (indent : Option Nat) : Succeeds (r.json indent) :=
  Value.succeeds_writeAt_iff.mpr
    (Value.Shown.writable (plain_data hversion htotal hpassed hfailed))

/-- **The text of a report shows it.** What is read from the text has its status, its counts and its
outcomes. -/
theorem shows_of_json {r : Report} (hfinite : ∀ x ∈ r.duration, x.IsFinite) {width : Nat}
    {text : String} (h : r.json (some width) = .ok text) :
    ∃ v, Json.read text.toList = .ok v ∧ Report.Shows v r := by
  have hplain : r.data.IsJson := plain_data trivial trivial trivial trivial
  refine ⟨r.stored.data, ?_, ?_⟩
  · rw [Json.read_written (Json.spaced_report width) rfl hplain h, reread_data hfinite]
  · exact ⟨rfl, ⟨_, rfl, rfl, rfl, rfl⟩, (shows_data r).outcomes⟩

end Report

end Attest

import Attest.Proofs.Json.Parts
import Attest.Proofs.Report.Stored

/-!
# Reports that can be sent

Every text that a summary shows is in the report as data. So if the report as JSON can be sent, the
summary can be sent, too.

## Main results

* `Report.sendable_of_json` — the strings of a report that can be sent
* `Report.unbroken_summary` — its summary
-/

namespace Attest

variable {root v : Value} {r : Report} {o : Outcome} {text : String}

/-! ### Parts of records -/

theorem Value.Part.field {fields : List (String × Value)} {f : String × Value}
    (h : root.Part (.record fields)) (hf : f ∈ fields) : root.Part f.2 := by
  have hentry : (.str f.1, f.2) ∈ fields.map Value.entry := List.mem_map_of_mem hf
  exact h.entry hentry

theorem Value.Part.element {items : List Value} (h : root.Part (.list items)) (hv : v ∈ items) :
    root.Part v :=
  (hereditary_part root).item h hv

/-! ### Summaries -/

/-- The strings of a value can be sent. -/
def Value.Sendable (v : Value) : Prop := ∀ s, v.Part (.str s) → Unbroken s

theorem Value.Sendable.part (h : root.Sendable) (hv : root.Part v) : v.Sendable :=
  fun _ hs => h _ ((hereditary_part root).part hs hv)

theorem unbroken_signed (n : Int) : Unbroken (toString n) := by
  intro c hc
  rw [Json.toList_int] at hc
  rcases List.mem_append.mp hc with hc | hc
  · generalize decide (n < 0) = negative at hc
    cases negative with
    | true => rw [List.mem_singleton.mp hc]; decide
    | false => cases hc
  · exact isLone_of_digit hc

theorem Outcome.unbroken_lines (h : o.data.Sendable) :
    ∀ line ∈ Report.outcomeLines o, Unbroken line := by
  have hdescription : Unbroken o.description :=
    h _ (Value.Part.root.field (f := ("description", .str o.description)) (by simp))
  have hreason : Unbroken o.reason :=
    h _ (Value.Part.root.field (f := ("reason", .str o.reason)) (by simp))
  have htrace : ∀ line ∈ o.trace, Unbroken line := fun line hline =>
    h _ ((Value.Part.root.field (f := ("trace", textList o.trace)) (by simp)).element
      (List.mem_map_of_mem hline))
  have hid : ∀ id, o.checkId = some id → Unbroken id := by
    intro id hid
    have hfield : o.data.Part (optionalText o.checkId) :=
      Value.Part.root.field (f := ("check_id", optionalText o.checkId)) (by simp)
    rw [hid] at hfield
    exact h id hfield
  have hicon : Unbroken (Outcome.icon o.passed) := by
    cases o.passed <;> decide
  unfold Report.outcomeLines
  refine List.forall_mem_cons.mpr ⟨?_, ?_⟩
  · refine ((((Unbroken.append (by decide) hicon).append (by decide)).append ?_).append
      (by decide)).append hdescription
    split
    · next id hsome =>
      split
      · exact hdescription
      · exact hid id hsome
    · exact hdescription
  · split
    · exact List.forall_mem_nil _
    · exact List.forall_mem_cons.mpr ⟨.append (by decide) hreason,
        List.forall_mem_map.mpr fun line hline => .append (by decide) (htrace line hline)⟩

namespace Report

theorem part_outcome (ho : o ∈ r.outcomes) : r.data.Part o.data := by
  have houtcomes : r.data.Part (.list (r.outcomes.map Outcome.data)) :=
    Value.Part.root.field (f := ("outcomes", .list (r.outcomes.map Outcome.data))) (by simp)
  exact houtcomes.element (List.mem_map_of_mem ho)

/-- The candidates of an outcome are in the report. -/
theorem unbroken_candidates (h : r.data.Sendable) (ho : o ∈ r.outcomes) :
    ∀ candidate ∈ o.candidates, Unbroken candidate := fun candidate hcandidate =>
  h.part (part_outcome ho) candidate ((Value.Part.root.field
    (f := ("candidates", textList o.candidates)) (by simp)).element
      (List.mem_map_of_mem hcandidate))

theorem unbroken_durationText (d : Option Double) : Unbroken (durationText d) := by
  unfold durationText
  split
  · decide
  · split
    · decide
    · split
      · refine (Unbroken.append ?_ (unbroken_signed _)).append (by decide)
        split <;> decide
      · decide

/-- **The summary of a report can be sent** if its strings can. -/
theorem unbroken_summary (h : r.data.Sendable) : Unbroken r.summary := by
  have hname : Unbroken r.suiteName :=
    h _ (Value.Part.root.field (f := ("suite_name", .str r.suiteName)) (by simp))
  have hrunId : Unbroken r.runId :=
    h _ (Value.Part.root.field (f := ("run_id", .str r.runId)) (by simp))
  have hstatus : Unbroken ("  Status:     " ++ r.status.icon ++ " " ++ r.status.name.toUpper) := by
    cases r.status <;> decide +kernel
  refine Unbroken.joined (by decide) ?_
  simp only [List.forall_mem_append, List.forall_mem_cons, List.forall_mem_flatMap]
  have hheavy : Unbroken heavyRule := by decide +kernel
  have hlight : Unbroken lightRule := by decide +kernel
  refine ⟨⟨⟨hheavy, .append (by decide) hname, hheavy, .append (by decide) hrunId, hstatus,
    .append (by decide) (unbroken_durationText _), hlight, ?_, hlight, List.forall_mem_nil _⟩,
    fun o ho => Outcome.unbroken_lines (h.part (part_outcome ho))⟩, hheavy, List.forall_mem_nil _⟩
  exact (((Unbroken.append (by decide) (unbroken_natural _)).append (by decide)).append
    (unbroken_natural _)).append (by decide)

/-- **If a report can be sent** as JSON, every string in it can. -/
theorem sendable_of_json {indent : Option Nat} (h : r.json indent = .ok text)
    (hunbroken : Unbroken text) : r.data.Sendable := by
  intro s hs
  have hjson : r.data.IsJson := plain_data trivial trivial trivial trivial
  have hwritten : Json.writeAt (.report indent) 0 r.data = .ok text := h
  exact Json.unbroken_of_part rfl rfl hjson hs hwritten hunbroken

end Report

end Attest

import Attest.Path
import Attest.Proofs.Value.Part

/-!
# Where paths lead

A path leads to a part of the value that it starts from, so what can be shown leads to what can be
shown. It should never fail, but an index with too many digits cannot be read. Whether that is
noticed depends on the value: the segment is read as an index only if an array is there to be
indexed, and the path comes that far.

## Main definitions

* `Path.Oversized`, `Path.Blocked` — an index that cannot be read, and a path that meets one
* `Path.BlockedFrom` — the same for a path that may start from the root

## Main results

* `Path.walk_within` — what a path leads to has the properties that go over to parts
* `Path.walk_error_iff` — it fails exactly at an array with an index that cannot be read
-/

namespace Attest

namespace Path

/-! ### Parts -/

theorem elementAt?_mem {items : List Value} {index : Int} {w : Value}
    (hw : elementAt? items index = some w) : w ∈ items := by
  simp only [elementAt?] at hw
  split at hw <;> split at hw
  any_goals exact List.mem_of_getElem? hw
  all_goals cases hw

section

variable {P : Value → Prop} (hP : Value.Hereditary P) {v w : Value}

include hP

theorem descend_within {segment : List Char} (h : P v)
    (hw : descend v segment = .ok (some w)) : P w := by
  unfold descend at hw
  split at hw
  · exact hP.lookup h (Except.ok.inj hw)
  · split at hw
    · obtain ⟨index, _, hw⟩ := map_eq_ok hw
      exact hP.item h (elementAt?_mem hw)
    · cases hw
  · cases hw

/-- **A path leads to what has the properties that go over to parts.** -/
theorem walk_within : ∀ {segments : List (List Char)} {v : Value}, P v →
    walk v segments = .ok (some w) → P w
  | [], v, h, hw => by
    rw [walk] at hw
    cases hw
    exact h
  | segment :: rest, v, h, hw => by
    rw [walk] at hw
    obtain ⟨next?, hnext, hw⟩ := bind_eq_ok hw
    cases next? with
    | none => cases hw
    | some next => exact walk_within (descend_within hP h hnext) hw

end

/-! ### Failures -/

/-- An index with more digits than are read. -/
def Oversized (segment : List Char) : Prop :=
  ∃ negative digits, indexParts? segment = some (negative, digits) ∧ digitLimit < digits.length

/-- The path comes to an array with an index that is too long. -/
def Blocked (v : Value) (segments : List (List Char)) : Prop :=
  ∃ before segment after node form items, segments = before ++ segment :: after ∧
    walk v before = .ok (some (.array node form items)) ∧ Oversized segment

/-- A segment of digits only is an index, however long. -/
theorem oversized_of_digits {digits : List Char} (h : ∀ c ∈ digits, isIndexDigit c = true)
    (hlong : digitLimit < digits.length) : Oversized digits := by
  refine ⟨false, digits, ?_, hlong⟩
  have hne : digits ≠ [] := List.ne_nil_of_length_pos (Nat.zero_lt_of_lt hlong)
  unfold indexParts?
  split
  · exact absurd (h '-' List.mem_cons_self) (by decide)
  · exact if_pos ⟨hne, List.all_eq_true.mpr h⟩

theorem blocked_of_oversized {segment : List Char} (h : Oversized segment) (node : NodeId)
    (form : ArrayForm) (items : List Value) : Blocked (.array node form items) [segment] :=
  ⟨[], segment, [], node, form, items, rfl, rfl, h⟩

theorem pieces_of_not_mem {path : List Char} (h : '/' ∉ path) : pieces path = [path] := by
  induction path with
  | nil => rfl
  | cons c rest ih =>
    obtain ⟨hc, hrest⟩ := not_or.mp (mt List.mem_cons.mpr h)
    rw [pieces, if_neg (Ne.symm hc), ih hrest]

/-- A path without slashes is one segment. -/
theorem segmentsOf_of_not_mem {path : List Char} (h : '/' ∉ path) (hne : path ≠ []) :
    segmentsOf path = [path] := by
  rw [segmentsOf, pieces_of_not_mem h]
  simp [hne]

theorem descend_error_iff {v : Value} {segment : List Char} :
    (∃ fault, descend v segment = .error fault) ↔
      (∃ node form items, v = .array node form items) ∧ Oversized segment := by
  unfold descend
  split
  · simp
  · next node form items =>
    unfold index? Oversized
    cases hparts : indexParts? segment with
    | none => simp
    | some parts =>
      obtain ⟨negative, digits⟩ := parts
      simp only [Option.map_some]
      split
      · next hlt => exact ⟨fun _ => ⟨⟨_, _, _, rfl⟩, _, _, rfl, hlt⟩, fun _ => ⟨_, rfl⟩⟩
      · next hge =>
        refine ⟨(fun ⟨_, h⟩ => by cases h), ?_⟩
        rintro ⟨-, _, _, ⟨⟩, hlt⟩
        exact absurd hlt hge
  · next hnone =>
    refine ⟨(fun ⟨_, h⟩ => by cases h), ?_⟩
    rintro ⟨⟨_, _, _, rfl⟩, -⟩
    exact absurd rfl (hnone _ _ _)

theorem descend_error {v : Value} {segment : List Char} {fault : Fault}
    (h : descend v segment = .error fault) : ∃ count, fault = .tooManyDigits count := by
  unfold descend at h
  split at h
  · cases h
  · unfold index? at h
    cases hparts : indexParts? segment with
    | none => simp [hparts] at h
    | some parts =>
      simp only [hparts, Option.map_some] at h
      split at h
      · cases h
        exact ⟨_, rfl⟩
      · cases h
  · cases h

theorem walk_error {fault : Fault} : ∀ {segments : List (List Char)} {v : Value},
    walk v segments = .error fault → ∃ count, fault = .tooManyDigits count
  | [], v, h => by cases h
  | segment :: rest, v, h => by
    rw [walk] at h
    rcases bind_eq_error h with h | ⟨next?, _, h⟩
    · exact descend_error h
    · cases next? with
      | none => cases h
      | some next => exact walk_error h

/-- **A path fails exactly at an array with an index that cannot be read.** -/
theorem walk_error_iff : ∀ {segments : List (List Char)} {v : Value},
    (∃ fault, walk v segments = .error fault) ↔ Blocked v segments
  | [], v => by
    refine ⟨(fun ⟨_, h⟩ => by cases h), ?_⟩
    rintro ⟨before, segment, after, _, _, _, h, _⟩
    simp at h
  | segment :: rest, v => by
    constructor
    · rintro ⟨fault, h⟩
      rw [walk] at h
      rcases bind_eq_error h with h | ⟨next?, hnext, h⟩
      · obtain ⟨⟨node, form, items, rfl⟩, ho⟩ := descend_error_iff.mp ⟨fault, h⟩
        exact ⟨[], segment, rest, node, form, items, rfl, rfl, ho⟩
      · cases next? with
        | none => cases h
        | some next =>
          obtain ⟨before, s, after, node, form, items, rfl, hw, ho⟩ :=
            walk_error_iff.mp ⟨fault, h⟩
          refine ⟨segment :: before, s, after, node, form, items, rfl, ?_, ho⟩
          rw [walk, hnext]
          exact hw
    · rintro ⟨before, s, after, node, form, items, he, hw, ho⟩
      cases before with
      | nil =>
        obtain ⟨rfl, rfl⟩ := List.cons.inj he
        rw [walk] at hw
        cases hw
        obtain ⟨fault, hf⟩ := descend_error_iff.mpr ⟨⟨node, form, items, rfl⟩, ho⟩
        exact ⟨fault, by rw [walk, hf]; rfl⟩
      | cons first before =>
        obtain ⟨rfl, rfl⟩ := List.cons.inj he
        rw [walk] at hw
        obtain ⟨next?, hnext, hw⟩ := bind_eq_ok hw
        cases next? with
        | none => cases hw
        | some next =>
          obtain ⟨fault, hf⟩ :=
            walk_error_iff.mpr ⟨before, s, after, node, form, items, rfl, hw, ho⟩
          refine ⟨fault, ?_⟩
          rw [walk, hnext]
          exact hf

theorem succeeds_follow_iff {v : Value} {path : String} :
    Succeeds (follow v path) ↔ ¬ Blocked v (segmentsOf path.toList) := by
  rw [← walk_error_iff, ← not_succeeds_iff, Classical.not_not]
  rfl

/-! ### From a candidate or from the root -/

/-- Where a path is followed from. -/
def origin (root : Value) (path : String) (candidate : Value) : Value :=
  if isAbsolute path then root else candidate

/-- The path is blocked from a candidate. -/
def BlockedFrom (root : Value) (path : String) (candidate : Value) : Prop :=
  Blocked (origin root path candidate) (segmentsOf path.toList)

theorem origin_shown {root candidate : Value} (hr : root.Shown) (hc : candidate.Shown)
    (path : String) : (origin root path candidate).Shown := by
  unfold origin
  split
  · exact hr
  · exact hc

end Path

end Attest

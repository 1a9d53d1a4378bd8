import Attest.Proofs.Query.Matches
import Attest.Proofs.Step.Affirm
import Attest.Step.Select

/-!
# What interrupts a selector or a filter

A selector leaves parts of its candidates and a filter some of them, so what can be shown stays so.
Filters are never interrupted. Of the selectors, one follows a path and stops where that is
blocked, and one evaluates a query and stops where the package for queries does.

## Main definitions

* `QueryEngine.Stuck` — a query text that a package cannot read to its end, or cannot evaluate

## Main results

* `Step.atPath_behaves`, `Step.select_behaves` — the selectors that can be interrupted
* `Step.containing_behaves`, `Step.matching_behaves` — the filters
-/

namespace Attest

variable {s : Step} {vs : List Value}

/-! ### Paths -/

theorem followEach_tame (path : String) (hvs : AllShown vs) :
    Tame (followEach path vs) id (∃ v ∈ vs, Path.Blocked v (Path.segmentsOf path.toList)) := by
  induction vs with
  | nil => exact (tame_ok hvs).congr (by simp)
  | cons v rest ih =>
    obtain ⟨hv, hrest⟩ := allShown_cons.mp hvs
    rw [followEach]
    refine Tame.congr ((Path.follow_tame hv path).then fun part hpart =>
      (ih hrest).follow fun others hothers => tame_ok ?_) (by simp)
    cases part with
    | none => exact hothers
    | some w => exact allShown_cons.mpr ⟨hpart w List.mem_cons_self, hothers⟩

/-- **Going to a path is interrupted iff the path is blocked from where it is followed.** -/
theorem Step.atPath_behaves {path : String} {root : Value} (hr : root.Shown)
    (h : atPath (.str path) root = .ok s) :
    s.Behaves fun vs => ∃ v ∈ (if Path.isAbsolute path then [root] else vs),
      Path.Blocked v (Path.segmentsOf path.toList) := by
  obtain ⟨shown, _, h⟩ := bind_eq_ok h
  cases h
  intro vs hvs
  have hexamined : AllShown (if Path.isAbsolute path then [root] else vs) := by
    split
    · exact allShown_cons.mpr ⟨hr, allShown_nil⟩
    · exact hvs
  refine (followEach_tame path hexamined).follow fun found hfound => tame_ok ?_
  generalize (if Path.isAbsolute path then [root] else vs) = examined
  split
  · exact allShown_nil
  · exact hfound

/-! ### Objects -/

theorem objectsIn_tame (hvs : AllShown vs) : Tame (objectsIn vs) id False := by
  induction vs with
  | nil => exact tame_ok hvs
  | cons v rest ih =>
    obtain ⟨hv, hrest⟩ := allShown_cons.mp hvs
    rw [objectsIn]
    refine (tame_of_succeeds hv.kind_ok).follow fun kind _ =>
      (ih hrest).follow fun others hothers => tame_ok ?_
    show AllShown (if kind = .object then v :: others else others)
    split
    · exact allShown_cons.mpr ⟨hv, hothers⟩
    · exact hothers

/-- The objects that were found, unless there was something else. -/
def objectsFound : List Value ⊕ (Nat × Kind) → List Value
  | .inl found => found
  | .inr _ => []

theorem objectsOf_tame (hvs : AllShown vs) (index : Nat) :
    Tame (objectsOf index vs) objectsFound False := by
  induction vs generalizing index with
  | nil => exact tame_ok hvs
  | cons v rest ih =>
    obtain ⟨hv, hrest⟩ := allShown_cons.mp hvs
    rw [objectsOf]
    refine (tame_of_succeeds hv.kind_ok).follow fun kind _ => ?_
    split
    · refine (objectsIn_tame (Value.plainItems_iff.mp hv.items)).follow fun found hfound =>
        (ih hrest (index + 1)).follow fun r hr => tame_ok ?_
      cases r with
      | inl others => exact allShown_append.mpr ⟨hfound, hr⟩
      | inr wrong => exact allShown_nil
    · exact tame_ok allShown_nil

theorem Step.withObjects_behaves : withObjects.Behaves fun _ => False := by
  intro vs hvs
  simp only [withObjects]
  split
  · exact tame_ok hvs
  · refine (objectsOf_tame hvs 0).follow fun r hr => tame_ok ?_
    cases r with
    | inl found => exact hr
    | inr wrong => exact allShown_nil

/-! ### Queries -/

/-- The evaluation of a query text on candidates stops: the package is interrupted before there is a
query, or the query cannot be evaluated on one of them. -/
def QueryEngine.Stuck (queries : QueryEngine) (text : String) (vs : List Value) : Prop :=
  match queries (.str text) with
  | .error (.malformed _) => False
  | .error (.interrupted _) => vs ≠ []
  | .ok find => ∃ v ∈ vs, ¬ Succeeds (find v)

section

variable {queries : QueryEngine} (hq : queries.Documented) {text : String}
include hq

theorem QueryEngine.Documented.find_tame {find : Finder} (h : queries (.str text) = .ok find)
    {v : Value} (hv : v.Shown) : Tame (find v) id (¬ Succeeds (find v)) where
  runs := Classical.not_not.symm
  shown _ hfound _ hw := (hq.findsParts _ _ h).within (Value.hereditary_plain _) hv hfound hw
  cause fault hfault := by rcases hq.stops text find h v fault hfault with rfl | rfl <;> trivial

theorem QueryEngine.Documented.selectEach_tame {find : Finder}
    (h : queries (.str text) = .ok find) (hvs : AllShown vs) :
    Tame (selectEach find vs) id (∃ v ∈ vs, ¬ Succeeds (find v)) := by
  induction vs with
  | nil => exact (tame_ok hvs).congr (by simp)
  | cons v rest ih =>
    obtain ⟨hv, hrest⟩ := allShown_cons.mp hvs
    rw [selectEach]
    exact Tame.congr ((hq.find_tame h hv).then fun found hfound =>
      (ih hrest).follow fun others hothers => tame_ok (allShown_append.mpr ⟨hfound, hothers⟩))
      (by simp)

/-- **Evaluating a query is interrupted iff the query is stuck.** -/
theorem Step.select_behaves (h : select queries (.str text) = .ok s) :
    s.Behaves (queries.Stuck text) := by
  obtain ⟨shown, _, h⟩ := bind_eq_ok h
  cases h
  intro vs hvs
  unfold QueryEngine.Stuck
  -- without a candidate the query is not even read
  cases vs with
  | nil =>
    refine Tame.congr (tame_ok hvs) ?_
    split <;> simp
  | cons v rest =>
    dsimp only [List.isEmpty_cons]
    cases he : queries (.str text) with
    | ok find => exact (hq.selectEach_tame he hvs).follow fun found hfound => tame_ok hfound
    | error trouble =>
      cases trouble with
      | malformed problem => exact tame_ok allShown_nil
      | interrupted fault =>
        obtain ⟨count, rfl⟩ := hq.interrupts text fault he
        have hescapes : (Fault.tooManyDigits count).Escapes := trivial
        exact (tame_error hescapes).congr (by simp)

end

/-! ### Filters -/

theorem keep_tame {test : Value → Except Fault Bool}
    (h : ∀ v : Value, v.Shown → Succeeds (test v)) (hvs : AllShown vs) :
    Tame (keep test vs) id False := by
  induction vs with
  | nil => exact tame_ok hvs
  | cons v rest ih =>
    obtain ⟨hv, hrest⟩ := allShown_cons.mp hvs
    rw [keep]
    refine (tame_of_succeeds (h v hv)).follow fun holds _ =>
      (ih hrest).follow fun others hothers => tame_ok ?_
    cases holds with
    | true => exact allShown_cons.mpr ⟨hv, hothers⟩
    | false => exact hothers

theorem holdsEntry_ok {key : String} {expected candidate : Value} (he : expected.Shown)
    (hc : candidate.Shown) : Succeeds (holdsEntry (.str key) expected candidate) := by
  refine hc.kind_ok.bind fun kind _ => ?_
  split
  · cases candidate with
    | object node form entries =>
      simp only [Value.unhashable?]
      cases hlookup : Value.lookup (.str key) entries with
      | some actual => exact (hc.entries.lookup hlookup).equals_ok he
      | none => exact succeeds_ok _
    | _ => exact succeeds_ok _
  · exact succeeds_ok _

theorem keepMatching_tame {criteria : Entries}
    (he : Value.PlainEntries (fun n => n.natAbs < digitBound) criteria) (hvs : AllShown vs) :
    Tame (keepMatching criteria vs) id False := by
  induction criteria generalizing vs with
  | nil => exact tame_ok hvs
  | cons e rest ih =>
    obtain ⟨key, expected⟩ := e
    obtain ⟨⟨name, rfl⟩, hexpected, hrest⟩ := he
    rw [keepMatching]
    exact (keep_tame (fun _ hv => holdsEntry_ok hexpected hv) hvs).follow fun kept hkept =>
      ih hrest hkept

namespace Step

theorem containing_behaves {key : String} {expected : Value} (he : expected.Shown)
    (h : containing (.str key) expected = .ok s) : s.Behaves fun _ => False := by
  obtain ⟨shownKey, _, h⟩ := bind_eq_ok h
  obtain ⟨shown, _, h⟩ := bind_eq_ok h
  cases h
  intro vs hvs
  exact (keep_tame (fun _ hv => holdsEntry_ok he hv) hvs).follow fun kept hkept => tame_ok hkept

theorem matching_behaves {criteria : Entries}
    (he : Value.PlainEntries (fun n => n.natAbs < digitBound) criteria)
    (h : matching criteria = .ok s) : s.Behaves fun _ => False := by
  obtain ⟨shown, _, h⟩ := bind_eq_ok h
  cases h
  intro vs hvs
  exact (keepMatching_tame he hvs).follow fun kept hkept => tame_ok hkept

end Step

end Attest

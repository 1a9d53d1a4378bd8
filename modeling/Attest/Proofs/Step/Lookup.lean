import Attest.Chain.Bind
import Attest.Proofs.Step.Filter
import Attest.Proofs.Step.Judgement
import Attest.Proofs.Step.Navigation
import Attest.Proofs.Step.Operation

/-!
# Looking a value up

A value in a document can be looked up in three ways: by an assertion that follows a path from each
candidate, by going to the path and comparing what was found, and by a filter for the entry under a
key. For one candidate each of them asks whether the path leads to a value that equals what is
expected. So they agree, provided there is a candidate: going to an absolute path examines the root
alone, whoever asks.

## Main results

* `Step.Affirms.passes_iff` — when a step that checks every candidate passes
* `Step.atPath_passes_iff` — when going to a path passes
* `Path.finds_or_spares`, `Path.Finds.not_spares` — the two assertions exclude each other
* `Path.finds_key_iff` — a path of one key asks for an entry
* `Step.lookups_agree` — three ways to look a value up
-/

namespace Attest

/-! ### Passing -/

/-- No problem is found iff every check comes to an end without one. -/
theorem problemsFrom_eq_nil_iff {check : Check} {vs : List Value} (index : Nat) :
    problemsFrom check index vs = .ok [] ↔ ∀ v ∈ vs, check v = .ok none := by
  induction vs generalizing index with
  | nil => simp [problemsFrom]
  | cons v rest ih =>
    rw [List.forall_mem_cons, ← ih (index + 1), problemsFrom]
    constructor
    · intro h
      obtain ⟨problem, hproblem, h⟩ := bind_eq_ok h
      obtain ⟨others, hothers, h⟩ := bind_eq_ok h
      cases problem with
      | some text => cases h
      | none =>
        cases h
        exact ⟨hproblem, hothers⟩
    · rintro ⟨hcheck, hrest⟩
      rw [hcheck, hrest]
      rfl

/-- A step that checks every candidate passes iff there is one, and each has the property. -/
theorem Step.Affirms.passes_iff {s : Step} {P : Value → Prop} (h : s.Affirms P)
    (vs : List Value) : s.Passes vs ↔ vs ≠ [] ∧ ∀ v ∈ vs, P v := by
  obtain ⟨description, okMessage, check, rfl, hcheck⟩ := h
  have hall : (∀ v ∈ vs, P v) ↔ problemsFrom check 0 vs = .ok [] := by
    rw [problemsFrom_eq_nil_iff]
    exact forall₂_congr fun v _ => (hcheck v).symm
  rw [hall]
  show (∃ ran, checkEvery check okMessage vs = .ok ran ∧ ran.passed = true) ↔ _
  unfold checkEvery
  split
  · next hempty => simp [List.isEmpty_iff.mp hempty]
  · next hne =>
    rw [List.isEmpty_iff] at hne
    rw [and_iff_right hne]
    constructor
    · rintro ⟨ran, hran, hpassed⟩
      obtain ⟨problems, hproblems, hran⟩ := bind_eq_ok hran
      cases hran
      cases problems with
      | nil => exact hproblems
      | cons text rest => cases hpassed
    · intro hproblems
      rw [hproblems]
      exact ⟨_, rfl, rfl⟩

/-! ### Following a path -/

namespace Path

variable {path key : String} {root c w : Value} {vs : List Value} {expected : Option Value}
  {Q : Value → Prop}

theorem exists_leadsEach_iff :
    (∃ xs, LeadsEach path vs xs ∧ ∀ x ∈ xs, Q x) ↔
      ∀ v ∈ vs, ∃ x, follow v path = .ok (some x) ∧ Q x := by
  induction vs with
  | nil => exact iff_of_true ⟨[], .nil, by simp⟩ (by simp)
  | cons v rest ih =>
    rw [List.forall_mem_cons, ← ih]
    constructor
    · rintro ⟨_, _ | ⟨hx, hrest⟩, hall⟩
      obtain ⟨hQ, hall⟩ := List.forall_mem_cons.mp hall
      exact ⟨⟨_, hx, hQ⟩, _, hrest, hall⟩
    · rintro ⟨⟨x, hx, hQ⟩, xs, hxs, hall⟩
      exact ⟨x :: xs, .cons hx hxs, List.forall_mem_cons.mpr ⟨hQ, hall⟩⟩

/-- What is examined is where the path is followed from, if there is a candidate. -/
theorem forall_examined_iff (hne : vs ≠ []) :
    (∀ v ∈ examined path root vs, Q v) ↔ ∀ c ∈ vs, Q (origin root path c) := by
  unfold examined origin
  split
  · rw [List.forall_mem_singleton]
    refine ⟨fun h _ _ => h, fun h => ?_⟩
    obtain ⟨c, hc⟩ := List.exists_mem_of_ne_nil vs hne
    exact h c hc
  · exact Iff.rfl

theorem examined_ne_nil (hne : vs ≠ []) : examined path root vs ≠ [] := by
  unfold examined
  split
  · exact List.cons_ne_nil _ _
  · exact hne

/-- Where there is a candidate, the path leads somewhere from each value that is examined iff it
does so from each candidate. -/
theorem exists_leadsEach_examined_iff (hne : vs ≠ []) :
    (∃ xs, LeadsEach path (examined path root vs) xs ∧ ∀ x ∈ xs, Q x) ↔
      ∀ c ∈ vs, ∃ x, followFrom c root path = .ok (some x) ∧ Q x :=
  exists_leadsEach_iff.trans
    (forall_examined_iff (Q := fun v => ∃ x, follow v path = .ok (some x) ∧ Q x) hne)

/-- A path that finds a value does not spare it. -/
theorem Finds.not_spares (h : Finds root path expected c) : ¬ Spares root path expected c := by
  obtain ⟨x, hx, hequal⟩ := h
  rintro (hmiss | ⟨y, hy, e, he, hdiffer⟩)
  · cases hx.symm.trans hmiss
  · cases hx.symm.trans hy
    cases (hequal e he).symm.trans hdiffer

/-- **A path finds a value or spares it,** if it can be followed and values can be compared. -/
theorem finds_or_spares (hpath : Readable path) (hroot : root.JsonTree) (hc : c.JsonTree)
    (he : ∀ e ∈ expected, e.JsonTree) :
    Finds root path expected c ∨ Spares root path expected c := by
  obtain ⟨found, hfound⟩ := hpath.succeeds (origin root path c)
  cases found with
  | none => exact .inr (.inl hfound)
  | some x =>
    cases expected with
    | none => exact .inl ⟨x, hfound, by simp⟩
    | some e =>
      have horigin : (origin root path c).JsonTree := by
        unfold origin
        split <;> assumption
      have hx : x.JsonTree := walk_within Value.hereditary_jsonTree horigin hfound
      obtain ⟨same, hsame⟩ := hx.equals_ok (he e rfl)
      cases same with
      | true => exact .inl ⟨x, hfound, by simpa using hsame⟩
      | false => exact .inr (.inr ⟨x, hfound, e, rfl, hsame⟩)

/-- **A path of one key asks for the entry of an object.** -/
theorem finds_key_iff (hkey : key ≠ "") (hslash : '/' ∉ key.toList)
    (hc : c.kind = .ok .object) :
    Finds root key (some w) c ↔ c.Holds (.str key) w := by
  have hne : key.toList ≠ [] := by simpa using hkey
  have hrelative : isAbsolute key = false := by
    rw [isAbsolute, beq_eq_false_iff_ne]
    exact fun h => hslash (List.mem_of_head? h)
  cases c with
  | object node form entries =>
    have hfollow : followFrom (.object node form entries) root key
        = .ok (Value.lookup (.str key) entries) := by
      rw [followFrom, hrelative, if_neg Bool.false_ne_true, follow,
        segmentsOf_of_not_mem hslash hne, walk, descend, String.ofList_toList]
      show Except.ok _ >>= _ = _
      rw [Value.field?]
      cases Value.lookup (.str key) entries <;> rfl
    simp [Finds, Value.Holds, Value.entry?, hfollow]
  | _ => cases hc

end Path

namespace Step

variable {path : String} {root : Value} {vs : List Value} {s : Step} {limit : Int}

/-- **Going to a path passes** iff it leads somewhere from each candidate. -/
theorem atPath_passes_iff (hne : vs ≠ []) (hs : atPath (.str path) root = .ok s) :
    s.Passes vs ↔ ∀ c ∈ vs, ∃ x, Path.followFrom c root path = .ok (some x) := by
  have hleads : (∃ xs, Path.LeadsEach path (Path.examined path root vs) xs ∧ ∀ x ∈ xs, True) ↔
      ∀ c ∈ vs, ∃ x, Path.followFrom c root path = .ok (some x) ∧ True :=
    Path.exists_leadsEach_examined_iff hne
  simp only [and_true, implies_true] at hleads
  rw [← hleads]
  constructor
  · rintro ⟨ran, hran, hpassed⟩
    exact ⟨_, leads_of_atPath hs hran hpassed⟩
  · rintro ⟨xs, hxs⟩
    obtain ⟨message, hran⟩ := atPath_of_leads hs hxs
    exact ⟨_, hran, rfl⟩

/-- **Going to a path and checking what is found there** checks what each candidate leads to. -/
theorem atPath_then_iff {check : Step} {Q : Value → Prop} (hne : vs ≠ [])
    (hs : atPath (.str path) root = .ok s) (hcheck : check.Affirms Q) :
    (runSteps [s, check] vs).passed = true ↔
      ∀ c ∈ vs, ∃ x, Path.followFrom c root path = .ok (some x) ∧ Q x := by
  rw [← Path.exists_leadsEach_examined_iff hne, passed_runSteps_cons_iff]
  simp only [passed_runSteps_singleton_iff, hcheck.passes_iff]
  constructor
  · rintro ⟨ran, hran, hpassed, -, hall⟩
    exact ⟨_, leads_of_atPath hs hran hpassed, hall⟩
  · rintro ⟨xs, hxs, hall⟩
    obtain ⟨message, hran⟩ := atPath_of_leads hs hxs
    refine ⟨_, hran, rfl, ?_, hall⟩
    rintro rfl
    exact Path.examined_ne_nil hne (List.forall₂_nil_right_iff.mp hxs)

/-- An assertion on a path can be made iff the expected value can be shown. -/
theorem succeeds_mustContain_iff {expected : Option Value} :
    Succeeds (mustContain limit root (.str path) expected) ↔ ∀ e ∈ expected, e.Legible :=
  (succeeds_return_iff _).trans Operation.succeeds_expectationText_iff_legible

theorem succeeds_mustNotContain_iff {unexpected : Option Value} :
    Succeeds (mustNotContain limit root (.str path) unexpected) ↔ ∀ e ∈ unexpected, e.Legible :=
  (succeeds_return_iff _).trans Operation.succeeds_expectationText_iff_legible

/-- **Three ways to look a value up agree.** For a path of which the indexes can be read, and where
there is a candidate, an assertion that the path leads to a value passes iff going to the path and
comparing does, or only going there if no value is given. The opposite assertion never passes with
it, and one of the two passes on a single candidate. For a path that is a key, the objects that the
filter of an entry keeps are those on which the assertion passes, so it passes on what the filter
leaves unless that is nothing. A value that a call is given is expected whatever it is. -/
theorem lookups_agree {path : String} (hpath : Path.Readable path) {root : Value}
    (hroot : root.JsonTree) {vs : List Value} (hne : vs ≠ []) (hvs : ∀ c ∈ vs, c.JsonTree)
    {expected : Option Value} (he : ∀ e ∈ expected, e.JsonTree) (limit : Int) :
    (Succeeds (mustContain limit root (.str path) expected) ↔ ∀ e ∈ expected, e.Legible)
      ∧ (Succeeds (mustNotContain limit root (.str path) expected) ↔ ∀ e ∈ expected, e.Legible)
      ∧ (∀ contain exclude, mustContain limit root (.str path) expected = .ok contain →
        mustNotContain limit root (.str path) expected = .ok exclude →
        (∃ go, atPath (.str path) root = .ok go
          ∧ (expected = none → (contain.Passes vs ↔ go.Passes vs))
          ∧ ∀ e, expected = some e → ∃ be, mustBe limit e = .ok be
            ∧ (contain.Passes vs ↔ (runSteps [go, be] vs).passed = true))
        ∧ ¬ (contain.Passes vs ∧ exclude.Passes vs)
        ∧ (∀ c, vs = [c] → (contain.Passes vs ∨ exclude.Passes vs))
        ∧ (path ≠ "" → '/' ∉ path.toList → ∀ e, expected = some e →
          ∃ filter ran, containing (.str path) e = .ok filter ∧ filter.run vs = .ok ran
            ∧ (∀ c ∈ vs, c.kind = .ok .object → (c ∈ ran.candidates ↔ contain.Passes [c]))
            ∧ (contain.Passes ran.candidates ↔ ran.candidates ≠ [])))
      ∧ ∀ queries predicateOf, (∀ e, e ≠ .missing →
          Call.named queries predicateOf "must_contain" [.str path, e] []
            = .ok (.queue (.mustContain (.str path) (some e)))
          ∧ Call.named queries predicateOf "must_not_contain" [.str path, e] []
            = .ok (.queue (.mustNotContain (.str path) (some e))))
        ∧ Call.named queries predicateOf "must_contain" [.str path] []
          = .ok (.queue (.mustContain (.str path) none))
        ∧ Call.named queries predicateOf "must_not_contain" [.str path] []
          = .ok (.queue (.mustNotContain (.str path) none)) := by
  refine ⟨succeeds_mustContain_iff, succeeds_mustNotContain_iff, ?_, fun queries predicateOf => ?_⟩
  · intro contain exclude hcontain hexclude
    have hlegible := succeeds_mustContain_iff.mp ⟨contain, hcontain⟩
    have hpasses := (mustContain_affirms hcontain).passes_iff
    have hpasses' := (mustNotContain_affirms hexclude).passes_iff
    refine ⟨⟨_, rfl, ?_, ?_⟩, ?_, ?_, ?_⟩
    · rintro rfl
      rw [hpasses, and_iff_right hne, atPath_passes_iff hne rfl]
      simp [Path.Finds]
    · rintro e rfl
      obtain ⟨be, hbe⟩ : Succeeds (mustBe limit e) :=
        (succeeds_return_iff _).mpr (Value.succeeds_excerpt_iff.mpr (hlegible e rfl))
      refine ⟨be, hbe, ?_⟩
      rw [hpasses, and_iff_right hne, atPath_then_iff hne rfl (mustBe_affirms hbe)]
      simp [Path.Finds]
    · rw [hpasses, hpasses']
      rintro ⟨⟨-, hfinds⟩, -, hspares⟩
      obtain ⟨c, hc⟩ := List.exists_mem_of_ne_nil vs hne
      exact (hfinds c hc).not_spares (hspares c hc)
    · rintro c rfl
      rw [hpasses, hpasses', and_iff_right hne, and_iff_right hne, List.forall_mem_singleton,
        List.forall_mem_singleton]
      exact Path.finds_or_spares hpath hroot (hvs c (List.mem_singleton_self c)) he
    · rintro hkey hslash e rfl
      obtain ⟨filter, hfilter⟩ : Succeeds (containing (.str path) e) :=
        succeeds_containing_iff.mpr ⟨trivial, hlegible e rfl⟩
      have hrun := run_containing rfl (he e rfl) hvs hfilter
      -- what the filter asks for is what the assertion does, where there are only objects
      have hholds {c : Value} (hc : c.kind = .ok .object) :
          c.Holds (.str path) e ↔ Path.Finds root path (some e) c :=
        (Path.finds_key_iff hkey hslash hc).symm
      refine ⟨filter, _, hfilter, hrun, fun c hc hobject => ?_, ?_⟩
      · rw [mem_holding, hpasses, List.forall_mem_singleton, List.forall_mem_singleton,
          and_iff_right hc, hholds hobject, and_iff_right (List.cons_ne_nil c [])]
      · rw [hpasses, and_iff_left_iff_imp]
        rintro - c hc
        have hc' : c.Holds (.str path) e := by
          simpa using (mem_holding.mp hc).2
        exact (hholds hc'.kind).mp hc'
  · refine ⟨fun e hmissing => ?_, rfl, rfl⟩
    have hgiven : expectation e = some e := by
      cases e with
      | missing => exact absurd rfl hmissing
      | _ => rfl
    rw [← hgiven]
    exact ⟨rfl, rfl⟩

/-- A null that is there and is expected, under a key. -/
theorem lookups_agree_null :
    let c := Value.record [("a", .null)]
    ∃ contain exclude go be, mustContain 100 .null (.str "a") (some .null) = .ok contain
      ∧ mustNotContain 100 .null (.str "a") (some .null) = .ok exclude
      ∧ atPath (.str "a") .null = .ok go ∧ mustBe 100 .null = .ok be
      ∧ contain.Passes [c] ∧ ¬ exclude.Passes [c] ∧ (runSteps [go, be] [c]).passed = true
      ∧ ∃ filter, containing (.str "a") .null = .ok filter ∧ ComesTo [filter] [c] true [c] := by
  intro c
  have hpath : Path.Readable "a" := fun segment hs => Path.not_oversized (by
    revert segment
    decide)
  have hc : ∀ v ∈ [c], v.JsonTree := by
    simp [c, Value.record, Value.dict, Value.JsonTree, Value.JsonTreeEntries]
  have hroot : Value.null.JsonTree := trivial
  have hnull : ∀ e ∈ some Value.null, e.JsonTree := by simp [Value.JsonTree]
  obtain ⟨hmade, hmade', hagree, -⟩ :=
    lookups_agree hpath hroot (List.cons_ne_nil c []) hc hnull 100
  obtain ⟨contain, hcontain⟩ := hmade.mpr (by simp [Value.Legible])
  obtain ⟨exclude, hexclude⟩ := hmade'.mpr (by simp [Value.Legible])
  obtain ⟨⟨go, hgo, -, hboth⟩, hnever, -, hkey⟩ := hagree contain exclude hcontain hexclude
  obtain ⟨be, hbe, hrow⟩ := hboth .null rfl
  obtain ⟨filter, ran, hfilter, -⟩ := hkey (by decide) (by decide) .null rfl
  have hpasses : contain.Passes [c] := by
    cases hcontain
    exact ⟨_, rfl, rfl⟩
  refine ⟨contain, exclude, go, be, hcontain, hexclude, hgo, hbe, hpasses,
    fun h => hnever ⟨hpasses, h⟩, hrow.mp hpasses, filter, hfilter, ?_⟩
  cases hfilter
  exact ⟨rfl, rfl, rfl⟩

end Step

end Attest

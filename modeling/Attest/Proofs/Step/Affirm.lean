import Attest.Proofs.Path
import Attest.Proofs.Value.Tame
import Attest.Step.Affirm

/-!
# What interrupts an assertion

For candidates that can be shown, an assertion is hardly ever interrupted once it has been queued.
The exceptions follow a path, and are interrupted where the path comes to an array with an index
that cannot be read.

## Main definitions

* `Step.Behaves` — a step is interrupted where said, and leaves candidates that can be shown

## Main results

* `Check.Behaves.step` — a step that checks every candidate
* `Step.mustContain_behaves`, `Step.mustNotContain_behaves` — the assertions that follow a path
-/

namespace Attest

/-- On candidates that can be shown, a step is interrupted iff said. -/
def Step.Behaves (s : Step) (stops : List Value → Prop) : Prop :=
  ∀ vs, AllShown vs → Tame (s.run vs) Ran.candidates (stops vs)

/-- On a candidate that can be shown, a check is interrupted iff said. -/
def Check.Behaves (check : Check) (stops : Value → Prop) : Prop :=
  ∀ v : Value, v.Shown → Tame (check v) (fun _ => []) (stops v)

/-! ### Checking every candidate -/

theorem Check.Behaves.problems {check : Check} {stops : Value → Prop} (h : check.Behaves stops)
    {vs : List Value} (hvs : AllShown vs) (index : Nat) :
    Tame (problemsFrom check index vs) (fun _ => []) (∃ v ∈ vs, stops v) := by
  induction vs generalizing index with
  | nil => exact (tame_ok allShown_nil).congr (by simp)
  | cons v rest ih =>
    obtain ⟨hv, hrest⟩ := allShown_cons.mp hvs
    rw [problemsFrom]
    exact Tame.congr ((h v hv).then fun problem _ =>
      (ih hrest (index + 1)).follow fun others _ => tame_ok allShown_nil) (by simp)

/-- **A step that checks every candidate is interrupted iff its check of one of them is.** -/
theorem Check.Behaves.step {check : Check} {stops : Value → Prop} (h : check.Behaves stops)
    (description message : String) :
    (Step.assertion description message check).Behaves fun vs => ∃ v ∈ vs, stops v := by
  intro vs hvs
  show Tame (checkEvery check message vs) Ran.candidates _
  unfold checkEvery
  split
  · next hempty => exact (tame_ok hvs).congr (by simp [List.isEmpty_iff.mp hempty])
  · refine (h.problems hvs 0).follow fun problems _ => tame_ok ?_
    split <;> exact hvs

theorem Check.step_behaves_of_ok {check : Check} (h : ∀ v : Value, v.Shown → Succeeds (check v))
    (description message : String) :
    (Step.assertion description message check).Behaves fun _ => False := by
  intro vs hvs
  have hcheck : check.Behaves fun _ => False := fun v hv => tame_of_succeeds (h v hv)
  exact (hcheck.step description message vs hvs).congr (by simp)

/-! ### Kinds and sizes -/

theorem sizeCheck_ok (test : Nat → Option String) (v : Value) (hv : v.Shown) :
    Succeeds (sizeCheck test v) := by
  have hsize : Succeeds (sizeOr v) := by
    refine hv.size_ok.bind fun size _ => ?_
    cases size with
    | some n => exact succeeds_ok _
    | none => exact hv.kind_ok.bind fun _ _ => succeeds_ok _
  refine hsize.bind fun r _ => ?_
  cases r <;> exact succeeds_ok _

namespace Step

theorem isKind_behaves (expected : Kind) : (isKind expected).Behaves fun _ => False :=
  Check.step_behaves_of_ok (fun _ hv => hv.kind_ok.bind fun _ _ => succeeds_ok _) _ _

theorem isOneOfKinds_behaves (allowed : List Kind) :
    (isOneOfKinds allowed).Behaves fun _ => False :=
  Check.step_behaves_of_ok (fun _ hv => hv.kind_ok.bind fun _ _ => succeeds_ok _) _ _

theorem isEmpty_behaves : isEmpty.Behaves fun _ => False :=
  Check.step_behaves_of_ok (sizeCheck_ok _) _ _

theorem isNotEmpty_behaves : isNotEmpty.Behaves fun _ => False :=
  Check.step_behaves_of_ok (sizeCheck_ok _) _ _

theorem hasSize_behaves {n : Value} {s : Step} (h : hasSize n = .ok s) :
    s.Behaves fun _ => False := by
  obtain ⟨shown, _, h⟩ := bind_eq_ok h
  cases h
  exact Check.step_behaves_of_ok (sizeCheck_ok _) _ _

end Step

/-! ### Equality -/

theorem anyEquals_ok {expected : Value} (he : expected.Shown) : ∀ {items : List Value},
    Value.PlainItems (fun n => n.natAbs < digitBound) items → Succeeds (anyEquals expected items)
  | [], _ => succeeds_ok _
  | v :: rest, h => by
    rw [anyEquals]
    refine (h.1.equals_ok he).bind fun same _ => ?_
    split
    · exact succeeds_ok _
    · exact anyEquals_ok he h.2

namespace Step

theorem hasElement_behaves {limit : Int} {element : Value} {s : Step} (he : element.Shown)
    (h : hasElement limit element = .ok s) : s.Behaves fun _ => False := by
  obtain ⟨shown, _, h⟩ := bind_eq_ok h
  cases h
  refine Check.step_behaves_of_ok (fun v hv => ?_) _ _
  split
  · exact (anyEquals_ok he hv.items).bind fun _ _ => succeeds_ok _
  · split
    · split
      · exact succeeds_ok _
      · exact (hv.excerpt_ok limit).bind fun _ _ => succeeds_ok _
    · exact succeeds_ok _
  · exact hv.kind_ok.bind fun _ _ => succeeds_ok _

theorem mustBe_behaves {limit : Int} {expected : Value} {s : Step} (he : expected.Shown)
    (h : mustBe limit expected = .ok s) : s.Behaves fun _ => False := by
  obtain ⟨shown, _, h⟩ := bind_eq_ok h
  cases h
  refine Check.step_behaves_of_ok (fun v hv => (hv.equals_ok he).bind fun same _ => ?_) _ _
  split
  · exact succeeds_ok _
  · exact (hv.excerpt_ok limit).bind fun _ _ => succeeds_ok _

theorem mustNotBe_behaves {limit : Int} {unexpected : Value} {s : Step} (he : unexpected.Shown)
    (h : mustNotBe limit unexpected = .ok s) : s.Behaves fun _ => False := by
  obtain ⟨shown, _, h⟩ := bind_eq_ok h
  cases h
  exact Check.step_behaves_of_ok (fun v hv => (hv.equals_ok he).bind fun _ _ => succeeds_ok _) _ _

end Step

/-! ### Paths -/

theorem Path.follow_tame {v : Value} (hv : v.Shown) (path : String) :
    Tame (Path.follow v path) Option.toList
      (Path.Blocked v (Path.segmentsOf path.toList)) where
  runs := Path.succeeds_follow_iff
  shown found hfound w hw := by
    rw [Option.mem_toList] at hw
    subst hw
    exact Path.walk_within (Value.hereditary_plain _) hv hfound
  cause fault hfault := by
    obtain ⟨count, rfl⟩ := Path.walk_error hfault
    trivial

/-- A check of what a path leads to that nothing interrupts but the path. -/
theorem Check.behaves_of_reach {root : Value} {path : String} (hr : root.Shown)
    {judge : Option Value → Except Fault (Option String)}
    (h : ∀ found : Option Value, AllShown found.toList → Succeeds (judge found)) :
    Check.Behaves (fun v => reach root (.str path) v >>= judge) (Path.BlockedFrom root path) :=
  fun _ hv => (Path.follow_tame (Path.origin_shown hr hv path) path).follow fun found hfound =>
    tame_of_succeeds (h found hfound)

namespace Step

variable {limit : Int} {root : Value} {path : String} {expected : Option Value} {s : Step}

/-- **An assertion on what a path leads to is interrupted iff the path is blocked.** -/
theorem mustContain_behaves (hr : root.Shown) (he : ∀ v ∈ expected, v.Shown)
    (h : mustContain limit root (.str path) expected = .ok s) :
    s.Behaves fun vs => ∃ v ∈ vs, Path.BlockedFrom root path v := by
  obtain ⟨shownPath, _, h⟩ := bind_eq_ok h
  obtain ⟨text, _, h⟩ := bind_eq_ok h
  cases h
  refine Check.Behaves.step (Check.behaves_of_reach hr fun found hfound => ?_) _ _
  cases found with
  | none => exact succeeds_ok _
  | some actual =>
    cases expected with
    | none => exact succeeds_ok _
    | some wanted =>
      have ha : actual.Shown := hfound actual List.mem_cons_self
      have hw : wanted.Shown := he wanted rfl
      refine (ha.equals_ok hw).bind fun same _ => ?_
      split
      · exact succeeds_ok _
      · refine (hw.excerpt_ok limit).bind fun _ _ => ?_
        exact (ha.excerpt_ok limit).bind fun _ _ => succeeds_ok _

theorem mustNotContain_behaves (hr : root.Shown) (he : ∀ v ∈ expected, v.Shown)
    (h : mustNotContain limit root (.str path) expected = .ok s) :
    s.Behaves fun vs => ∃ v ∈ vs, Path.BlockedFrom root path v := by
  obtain ⟨shownPath, _, h⟩ := bind_eq_ok h
  obtain ⟨text, _, h⟩ := bind_eq_ok h
  cases h
  refine Check.Behaves.step (Check.behaves_of_reach hr fun found hfound => ?_) _ _
  cases found with
  | none => exact succeeds_ok _
  | some actual =>
    cases expected with
    | none => exact succeeds_ok _
    | some wanted =>
      have ha : actual.Shown := hfound actual List.mem_cons_self
      have hw : wanted.Shown := he wanted rfl
      refine (ha.equals_ok hw).bind fun same _ => ?_
      split
      · exact (hw.excerpt_ok limit).bind fun _ _ => succeeds_ok _
      · exact succeeds_ok _

end Step

/-! ### Texts -/

theorem textCheck_ok {test : String → Except Fault Bool} (h : ∀ text, Succeeds (test text))
    (problem : String) (v : Value) (hv : v.Shown) : Succeeds (textCheck test problem v) := by
  unfold textCheck
  split
  · next text =>
    refine (h text).bind fun holds _ => ?_
    split
    · exact succeeds_ok _
    · exact (hv.excerpt_ok _).bind fun _ _ => succeeds_ok _
  · exact hv.kind_ok.bind fun _ _ => succeeds_ok _

theorem compile_isText {isText : Bool} {modes : Modes} {source : List Char}
    {pattern : Pattern.Compiled} (h : Pattern.compile isText modes source = .ok pattern) :
    pattern.isText = isText := by
  unfold Pattern.compile at h
  obtain ⟨_, _, h⟩ := bind_eq_ok h
  cases h
  rfl

namespace Step

variable {s : Step}

theorem mustBeginWith_behaves {affix : String} (h : mustBeginWith (.str affix) = .ok s) :
    s.Behaves fun _ => False := by
  obtain ⟨shown, _, h⟩ := bind_eq_ok h
  cases h
  exact Check.step_behaves_of_ok (textCheck_ok (fun _ => succeeds_ok _) _) _ _

theorem mustEndWith_behaves {affix : String} (h : mustEndWith (.str affix) = .ok s) :
    s.Behaves fun _ => False := by
  obtain ⟨shown, _, h⟩ := bind_eq_ok h
  cases h
  exact Check.step_behaves_of_ok (textCheck_ok (fun _ => succeeds_ok _) _) _ _

/-- A pattern that was queued is a failed step if it is broken, and is else put to every text. -/
theorem mustMatch_behaves {source : String} (h : mustMatch (.str source) = .ok s) :
    s.Behaves fun _ => False := by
  obtain ⟨readiness, hready, h⟩ := bind_eq_ok h
  obtain ⟨shown, _, h⟩ := bind_eq_ok h
  cases h
  cases readiness with
  | broken problem => exact fun vs hvs => tame_ok hvs
  | ready compiled =>
    have htext : compiled.isText = true := by
      simp only [patternOf, compileSource] at hready
      split at hready
      · next pattern hpattern =>
        cases hready
        exact compile_isText hpattern
      · next e _ => cases e <;> cases hready
    refine Check.step_behaves_of_ok (textCheck_ok (fun text => ?_) _) _ _
    rw [matchesText, if_pos htext]
    exact succeeds_ok _

/-! ### Cardinality -/

theorem count_behaves {relation : Relation} {n : Int} (h : count relation (.int n) = .ok s) :
    s.Behaves fun _ => False := by
  obtain ⟨shown, _, h⟩ := bind_eq_ok h
  cases h
  intro vs hvs
  have hholds : Succeeds (relation.holds vs.length (.int n)) := by
    cases relation <;> exact succeeds_ok _
  refine (tame_of_succeeds hholds).follow fun holds _ => tame_ok ?_
  split <;> exact hvs

end Step

end Attest

import Attest.Proofs.Step.Select
import Attest.Step.Operation

/-!
# What interrupts an operation

An operation can go wrong twice: when it is queued, because its description shows the arguments,
and when it is run. For arguments that JSON has, this file says exactly when either happens.

## Main definitions

* `Operation.Plain` — the operations whose arguments have the form that is asked for
* `Operation.Refused` — those that cannot be queued
* `Operation.Interrupts` — those that are interrupted when they are run, on the candidates given

## Main results

* `Operation.Plain.succeeds_step_iff` — a plain operation is queued unless it is refused
* `Operation.Plain.behaves` — its step is interrupted where said
-/

namespace Attest

/-- The errors of a pattern that are not reported as a broken pattern. -/
def Pattern.Error.Escapes : Pattern.Error → Prop
  | .repetitionTooLarge | .tooManyDigits _ | .incompatibleAlphabets => True
  | _ => False

namespace Operation

open Value

/-- Paths, queries, keys and patterns are texts, numbers of things are integers, and what is
expected is JSON. Queries are put to the given package. -/
def Plain (queries : QueryEngine) : Operation → Prop
  | .withObjects | .isKind _ | .isOneOfKinds _ | .isEmpty | .isNotEmpty => True
  | .atPath (.str _) => True
  | .select package (.str _) => package = queries
  | .mustBeginWith (.str _) | .mustEndWith (.str _) | .mustMatch (.str _) => True
  | .hasSize (.int _) | .count _ (.int _) => True
  | .containing (.str _) v | .hasElement v | .mustBe v | .mustNotBe v => v.IsJson
  | .mustContain (.str _) expected | .mustNotContain (.str _) expected => ∀ v ∈ expected, v.IsJson
  | .matching criteria => Value.PlainEntries (fun _ => True) criteria
  | _ => False

/-- The operation cannot be queued: an argument has no text, or the pattern cannot be compiled for
a reason that is not reported as a broken pattern. -/
def Refused : Operation → Prop
  | .containing _ v | .hasElement v | .mustBe v | .mustNotBe v => ¬ v.Shown
  | .hasSize n | .count _ n => ¬ n.Shown
  | .mustContain _ expected | .mustNotContain _ expected => ∃ v ∈ expected, ¬ v.Shown
  | .matching criteria => ¬ (Value.dict criteria).Shown
  | .mustMatch (.str source) =>
    ∃ e, Pattern.compile true [] source.toList = .error e ∧ e.Escapes
  | _ => False

/-- The operation is interrupted when it is run on the candidates: a path is blocked, or a query
is stuck. -/
def Interrupts (root : Value) (vs : List Value) : Operation → Prop
  | .atPath (.str path) => ∃ v ∈ (if Path.isAbsolute path then [root] else vs),
      Path.Blocked v (Path.segmentsOf path.toList)
  | .select queries (.str text) => queries.Stuck text vs
  | .mustContain (.str path) _ | .mustNotContain (.str path) _ =>
    ∃ v ∈ vs, Path.BlockedFrom root path v
  | _ => False

/-! ### Queueing -/

theorem succeeds_expectationText_iff_legible {limit : Int} {path : String}
    {expected : Option Value} :
    Succeeds (expectationText limit (.str path) expected) ↔ ∀ v ∈ expected, v.Legible := by
  cases expected with
  | none => exact iff_of_true ⟨_, rfl⟩ (by simp)
  | some v =>
    refine (succeeds_return_iff _).trans (Value.succeeds_excerpt_iff.trans ?_)
    simp

theorem succeeds_expectationText_iff (limit : Int) (path : String) {expected : Option Value}
    (h : ∀ v ∈ expected, v.IsJson) :
    Succeeds (expectationText limit (.str path) expected) ↔ ¬ ∃ v ∈ expected, ¬ v.Shown := by
  rw [succeeds_expectationText_iff_legible, forall₂_congr fun v hv => (h v hv).legible_iff]
  simp

theorem expectationText_error {limit : Int} {path : Value} {expected : Option Value}
    {fault : Fault} (h : expectationText limit path expected = .error fault) :
    fault = .tooManyDigits none := by
  rcases bind_eq_error h with h | ⟨_, _, h⟩
  · exact Value.label_error h
  · cases expected with
    | none => cases h
    | some v =>
      rcases bind_eq_error h with h | ⟨_, _, h⟩
      · exact Value.excerpt_error h
      · cases h

theorem succeeds_patternOf_iff {source : String} : Succeeds (patternOf (.str source)) ↔
    ¬ ∃ e, Pattern.compile true [] source.toList = .error e ∧ e.Escapes := by
  simp only [patternOf, compileSource]
  cases Pattern.compile true [] source.toList with
  | ok pattern => simp [succeeds_ok]
  | error e =>
    cases e <;> simp [patternFault, Pattern.Error.Escapes, succeeds_ok, not_succeeds_error]

theorem patternOf_error {source : String} {fault : Fault}
    (h : patternOf (.str source) = .error fault) : fault.Escapes := by
  simp only [patternOf, compileSource] at h
  split at h
  · cases h
  · next e _ =>
    cases e <;> cases h
    all_goals trivial

variable {queries : QueryEngine} {o : Operation} {root : Value} {limit : Int}

/-- **A plain operation is queued unless it is refused.** -/
theorem Plain.succeeds_step_iff (h : o.Plain queries) :
    Succeeds (o.step root limit) ↔ ¬ o.Refused := by
  cases o with
  | withObjects | isKind | isOneOfKinds | isEmpty | isNotEmpty =>
    exact ⟨fun _ => id, fun _ => succeeds_ok _⟩
  | atPath path | select _ path =>
    cases path with
    | str => exact ⟨fun _ => id, fun _ => succeeds_ok _⟩
    | _ => exact h.elim
  | mustBeginWith affix | mustEndWith affix =>
    cases affix with
    | str text =>
      have hv : (Value.str text).IsJson := trivial
      have hshown := (hv.succeeds_excerpt_iff Value.defaultLimit).mpr trivial
      exact ⟨fun _ => id, fun _ => hshown.bind fun _ _ => succeeds_ok _⟩
    | _ => exact h.elim
  | containing key v =>
    cases key with
    | str key =>
      refine Iff.trans ?_
        ((IsJson.succeeds_excerpt_iff h defaultLimit).trans Classical.not_not.symm)
      exact succeeds_return_iff _
    | _ => exact h.elim
  | hasElement v | mustBe v | mustNotBe v =>
    refine Iff.trans ?_ ((IsJson.succeeds_excerpt_iff h limit).trans Classical.not_not.symm)
    exact succeeds_return_iff _
  | matching criteria =>
    have hv : (Value.dict criteria).IsJson := h
    refine Iff.trans ?_ ((hv.succeeds_excerpt_iff defaultLimit).trans Classical.not_not.symm)
    exact succeeds_return_iff _
  | hasSize n | count relation n =>
    cases n with
    | int n =>
      have hv : (Value.int n).IsJson := trivial
      refine Iff.trans ?_ (hv.succeeds_label_iff.trans Classical.not_not.symm)
      exact succeeds_return_iff _
    | _ => exact h.elim
  | mustContain path expected | mustNotContain path expected =>
    cases path with
    | str path =>
      refine Iff.trans ?_ (succeeds_expectationText_iff limit path h)
      exact succeeds_return_iff _
    | _ => exact h.elim
  | mustMatch pattern =>
    cases pattern with
    | str source =>
      refine Iff.trans ?_ succeeds_patternOf_iff
      exact succeeds_return_iff _
    | _ => exact h.elim
  | mustSatisfy => exact h.elim

theorem Plain.step_error (h : o.Plain queries) {fault : Fault}
    (he : o.step root limit = .error fault) :
    fault.Escapes := by
  cases o with
  | withObjects | isKind | isOneOfKinds | isEmpty | isNotEmpty => cases he
  | atPath v | select _ v | hasSize v | count _ v =>
    rcases bind_eq_error he with he | ⟨_, _, he⟩
    · rw [Value.label_error he]
      trivial
    · cases he
  | matching | hasElement | mustBe | mustNotBe | mustBeginWith | mustEndWith =>
    rcases bind_eq_error he with he | ⟨_, _, he⟩
    · rw [Value.excerpt_error he]
      trivial
    · cases he
  | containing key v =>
    rcases bind_eq_error he with he | ⟨_, _, he⟩
    · rw [Value.label_error he]
      trivial
    · rcases bind_eq_error he with he | ⟨_, _, he⟩
      · rw [Value.excerpt_error he]
        trivial
      · cases he
  | mustContain path expected | mustNotContain path expected =>
    rcases bind_eq_error he with he | ⟨_, _, he⟩
    · rw [Value.label_error he]
      trivial
    · rcases bind_eq_error he with he | ⟨_, _, he⟩
      · rw [expectationText_error he]
        trivial
      · cases he
  | mustMatch pattern =>
    cases pattern with
    | str source =>
      rcases bind_eq_error he with he | ⟨_, _, he⟩
      · exact patternOf_error he
      · cases he
    | _ => exact h.elim
  | mustSatisfy => exact h.elim

/-! ### Running -/

/-- **A plain operation that was queued is interrupted exactly where said.** -/
theorem Plain.behaves (h : o.Plain queries) (hq : queries.Documented) (hr : root.Shown) {s : Step}
    (hs : o.step root limit = .ok s) : s.Behaves fun vs => o.Interrupts root vs := by
  have hrefused : ¬ o.Refused := h.succeeds_step_iff.mp ⟨s, hs⟩
  cases o with
  | atPath path =>
    cases path with
    | str => exact Step.atPath_behaves hr hs
    | _ => exact h.elim
  | withObjects =>
    cases hs
    exact Step.withObjects_behaves
  | select package expression =>
    cases expression with
    | str =>
      cases h
      exact Step.select_behaves hq hs
    | _ => exact h.elim
  | containing key v =>
    cases key with
    | str => exact Step.containing_behaves (Classical.not_not.mp hrefused) hs
    | _ => exact h.elim
  | matching criteria => exact Step.matching_behaves (Classical.not_not.mp hrefused) hs
  | isKind kind =>
    cases hs
    exact Step.isKind_behaves kind
  | isOneOfKinds kinds =>
    cases hs
    exact Step.isOneOfKinds_behaves kinds
  | isEmpty =>
    cases hs
    exact Step.isEmpty_behaves
  | isNotEmpty =>
    cases hs
    exact Step.isNotEmpty_behaves
  | hasSize n => exact Step.hasSize_behaves hs
  | hasElement v => exact Step.hasElement_behaves (Classical.not_not.mp hrefused) hs
  | mustBe v => exact Step.mustBe_behaves (Classical.not_not.mp hrefused) hs
  | mustNotBe v => exact Step.mustNotBe_behaves (Classical.not_not.mp hrefused) hs
  | mustContain path expected =>
    have he : ∀ v ∈ expected, v.Shown := by simpa [Refused] using hrefused
    cases path with
    | str => exact Step.mustContain_behaves hr he hs
    | _ => exact h.elim
  | mustNotContain path unexpected =>
    have he : ∀ v ∈ unexpected, v.Shown := by simpa [Refused] using hrefused
    cases path with
    | str => exact Step.mustNotContain_behaves hr he hs
    | _ => exact h.elim
  | mustBeginWith affix =>
    cases affix with
    | str => exact Step.mustBeginWith_behaves hs
    | _ => exact h.elim
  | mustEndWith affix =>
    cases affix with
    | str => exact Step.mustEndWith_behaves hs
    | _ => exact h.elim
  | mustMatch pattern =>
    cases pattern with
    | str => exact Step.mustMatch_behaves hs
    | _ => exact h.elim
  | count relation n =>
    cases n with
    | int => exact Step.count_behaves hs
    | _ => exact h.elim
  | mustSatisfy => exact h.elim

end Operation

end Attest

import Attest.Proofs.Value.Likeness
import Attest.Step.Operation

/-!
# Steps on like candidates

A step is run twice, on candidates that are alike pairwise, and gives one verdict and like
candidates again. What it is made with may differ too: the limit of shown values in any way, and
the root of the document by a like one. Neither the limit nor the texts that depend on it come back
from a step other than as text, and no step compares anything but candidates with arguments.

Queries and predicates look at a candidate as a whole, so nothing can be said of them unless like
values are equal.

## Main definitions

* `Ran.Agrees`, `Step.Agrees` — one verdict, and like candidates
* `Finder.Respects` — a likeness goes over to what a query finds
* `Operation.Fits` — operations that respect a likeness

## Main results

* `Likeness.step` — the steps of an operation agree, whatever the limits
* `count_agree` — so do checks of the number of candidates
-/

namespace Attest

variable {R : Value → Value → Prop} {known : Value → Prop}

/-- One verdict, and like candidates. -/
structure Ran.Agrees (R : Value → Value → Prop) (a b : Ran) : Prop where
  passed : a.passed = b.passed
  candidates : List.Forall₂ R a.candidates b.candidates

/-- Steps that agree on like candidates. -/
def Step.Agrees (R : Value → Value → Prop) (s t : Step) : Prop :=
  ∀ vs ws, List.Forall₂ R vs ws → Agree (Ran.Agrees R) (s.run vs) (t.run ws)

/-- Checks that find a problem with both of two like candidates, or with neither. -/
def Check.Agrees (R : Value → Value → Prop) (c d : Check) : Prop :=
  ∀ v w, R v w → Agree (fun problem problem' => problem.isSome = problem'.isSome) (c v) (d w)

/-- A check of one and the same value. -/
theorem agree_problem (x : Except Fault (Option String)) :
    Agree (fun problem problem' => problem.isSome = problem'.isSome) x x := by
  cases x with
  | ok problem => exact .ok rfl
  | error fault => exact .error rfl

theorem isEmpty_eq_of_forall₂ {α β : Type} {rel : α → β → Prop} {l : List α} {l' : List β}
    (h : List.Forall₂ rel l l') : l.isEmpty = l'.isEmpty := by
  cases h <;> rfl

/-! ### Assertions -/

theorem Check.Agrees.problemsFrom {c d : Check} (h : Check.Agrees R c d) :
    ∀ {index : Nat} {vs ws : List Value}, List.Forall₂ R vs ws →
      Agree (fun problems problems' => problems.isEmpty = problems'.isEmpty)
        (problemsFrom c index vs) (problemsFrom d index ws)
  | _, _, _, .nil => .ok rfl
  | index, _, _, .cons hab hrest => by
    rw [Attest.problemsFrom, Attest.problemsFrom]
    refine (h _ _ hab).bind fun problem problem' hproblem => ?_
    refine (Check.Agrees.problemsFrom h hrest).bind fun others others' hothers => .ok ?_
    cases problem <;> cases problem' <;> first | exact hothers | rfl | cases hproblem

theorem Check.Agrees.checkEvery {c d : Check} (h : Check.Agrees R c d) (ok ok' : String)
    {vs ws : List Value} (hvs : List.Forall₂ R vs ws) :
    Agree (Ran.Agrees R) (checkEvery c ok vs) (checkEvery d ok' ws) := by
  unfold Attest.checkEvery
  rw [isEmpty_eq_of_forall₂ hvs]
  split
  · exact .ok ⟨rfl, hvs⟩
  · refine (h.problemsFrom hvs).bind fun problems problems' hproblems => .ok ?_
    rw [hproblems]
    split
    all_goals exact ⟨rfl, hvs⟩

/-- **Checks that agree make steps that agree.** -/
theorem Check.Agrees.assertion {c d : Check} (h : Check.Agrees R c d)
    (description description' ok ok' : String) :
    (Step.assertion description ok c).Agrees R (Step.assertion description' ok' d) :=
  fun _ _ hvs => h.checkEvery ok ok' hvs

section

variable (hR : Likeness R known)

include hR

/-! ### Selectors -/

theorem Likeness.followEach (path : String) : ∀ {vs ws : List Value}, List.Forall₂ R vs ws →
    Agree (List.Forall₂ R) (followEach path vs) (followEach path ws)
  | _, _, .nil => .ok .nil
  | _, _, .cons hab hrest => by
    rw [Attest.followEach, Attest.followEach]
    refine (hR.walk hab).bind fun found found' hfound => ?_
    refine (Likeness.followEach path hrest).bind fun others others' hothers => .ok ?_
    cases hfound with
    | none => exact hothers
    | some hx => exact .cons hx hothers

theorem Likeness.atPath (path : Value) {root root' : Value} (hroot : R root root') :
    Agree (Step.Agrees R) (Step.atPath path root) (Step.atPath path root') := by
  refine agree_after _ fun shown => .ok fun vs ws hvs => agree_after _ fun text => ?_
  have hexamined : List.Forall₂ R (if Path.isAbsolute text then [root] else vs)
      (if Path.isAbsolute text then [root'] else ws) := by
    split
    · exact .cons hroot .nil
    · exact hvs
  generalize (if Path.isAbsolute text then [root] else vs) = examined at hexamined ⊢
  generalize (if Path.isAbsolute text then [root'] else ws) = examined' at hexamined ⊢
  refine (hR.followEach text hexamined).bind fun found found' hfound => .ok ?_
  rw [hfound.length_eq, hexamined.length_eq]
  split
  · exact ⟨rfl, .nil⟩
  · exact ⟨rfl, hfound⟩

theorem Likeness.objectsIn : ∀ {items items' : List Value}, List.Forall₂ R items items' →
    Agree (List.Forall₂ R) (objectsIn items) (objectsIn items')
  | _, _, .nil => .ok .nil
  | _, _, .cons hab hrest => by
    rw [Attest.objectsIn, Attest.objectsIn, (hR.alike hab).kind]
    refine agree_after _ fun kind => ?_
    refine (Likeness.objectsIn hrest).bind fun others others' hothers => .ok ?_
    split
    · exact .cons hab hothers
    · exact hothers

omit hR in
theorem objectsOf_of_atomic {index : Nat} {v : Value} {rest : List Value} (hv : v.Atomic) :
    objectsOf index (v :: rest) = v.kind >>= fun kind => .ok (.inr (index, kind)) := by
  cases v with
  | array | object | str => exact hv.elim
  | _ => rfl

/-- The objects in like candidates are alike, unless both have a candidate that is no array. -/
theorem Likeness.objectsOf : ∀ {index : Nat} {vs ws : List Value}, List.Forall₂ R vs ws →
    Agree (Sum.LiftRel (List.Forall₂ R) fun _ _ => True) (objectsOf index vs) (objectsOf index ws)
  | _, _, _, .nil => .ok (.inl .nil)
  | index, _, _, .cons hab hrest => by
    cases hR.alike hab with
    | array hitems =>
      refine (hR.objectsIn hitems).bind fun found found' hfound => ?_
      refine (Likeness.objectsOf hrest).bind fun others others' hothers => .ok ?_
      cases hothers with
      | inl hothers => exact .inl (List.rel_append hfound hothers)
      | inr _ => exact .inr trivial
    | object | text => exact .ok (.inr trivial)
    | atom hv hw hkind =>
      rw [objectsOf_of_atomic hv, objectsOf_of_atomic hw, hkind]
      exact agree_after _ fun kind => .ok (.inr trivial)

theorem Likeness.withObjects : Step.withObjects.Agrees R Step.withObjects := by
  intro vs ws hvs
  simp only [Step.withObjects]
  rw [isEmpty_eq_of_forall₂ hvs]
  split
  · exact .ok ⟨rfl, hvs⟩
  · refine (hR.objectsOf hvs).bind fun found found' hfound => .ok ?_
    cases hfound with
    | inl hfound => exact ⟨rfl, hfound⟩
    | inr _ => exact ⟨rfl, .nil⟩

/-! ### Filters -/

omit hR in
theorem holdsEntry_of_atomic {key expected v : Value} (hv : v.Atomic) :
    holdsEntry key expected v = v.kind.map fun _ => false := by
  cases v with
  | array | object | str => exact hv.elim
  | _ => rfl

omit hR in
theorem holdsEntry_object {key expected : Value} (node : NodeId) (form : ObjectForm)
    (entries : Entries) : holdsEntry key expected (.object node form entries)
      = match key.unhashable? with
        | some name => .error (.unsuitable s!"unhashable type: '{name}'")
        | none =>
          match Value.lookup key entries with
          | some actual => Value.equals actual expected
          | none => .ok false := by
  simp only [holdsEntry]
  cases key.unhashable? <;> rfl

theorem Likeness.holdsEntry {v w expected : Value} (key : Value) (h : R v w)
    (hexpected : known expected) : holdsEntry key expected v = holdsEntry key expected w := by
  cases hR.alike h with
  | @object _ _ _ _ entries entries' _ hat =>
    rw [holdsEntry_object, holdsEntry_object]
    cases key.unhashable? with
    | some name => rfl
    | none =>
      have hentry := hat key
      generalize Value.lookup key entries = x at hentry ⊢
      generalize Value.lookup key entries' = y at hentry ⊢
      cases hentry with
      | none => rfl
      | some hx => exact hR.equals hx hexpected
  | array | text => rfl
  | atom hv hw hkind => rw [holdsEntry_of_atomic hv, holdsEntry_of_atomic hw, hkind]

omit hR in
theorem forall₂_keep {test : Value → Except Fault Bool}
    (htest : ∀ v w, R v w → test v = test w) : ∀ {vs ws : List Value}, List.Forall₂ R vs ws →
      Agree (List.Forall₂ R) (keep test vs) (keep test ws)
  | _, _, .nil => .ok .nil
  | _, _, .cons hab hrest => by
    rw [Attest.keep, Attest.keep, htest _ _ hab]
    refine agree_after _ fun kept => ?_
    refine (forall₂_keep htest hrest).bind fun others others' hothers => .ok ?_
    cases kept with
    | true => exact .cons hab hothers
    | false => exact hothers

theorem Likeness.keepMatching : ∀ {criteria : Entries} {vs ws : List Value},
    (∀ entry ∈ criteria, known entry.2) → List.Forall₂ R vs ws →
      Agree (List.Forall₂ R) (keepMatching criteria vs) (keepMatching criteria ws)
  | [], _, _, _, h => .ok h
  | (key, expected) :: rest, _, _, hcriteria, h => by
    rw [Attest.keepMatching, Attest.keepMatching]
    have htest (v w : Value) (hvw : R v w) :
        Attest.holdsEntry key expected v = Attest.holdsEntry key expected w :=
      hR.holdsEntry key hvw (hcriteria (key, expected) List.mem_cons_self)
    refine (forall₂_keep htest h).bind fun kept kept' hkept => ?_
    exact Likeness.keepMatching (fun e he => hcriteria e (List.mem_cons_of_mem _ he)) hkept

/-! ### Checks of one candidate -/

theorem Likeness.isKind (kind : Kind) : (Step.isKind kind).Agrees R (Step.isKind kind) := by
  refine Check.Agrees.assertion (fun v w h => ?_) _ _ _ _
  rw [(hR.alike h).kind]
  exact agree_after _ fun actual => .ok rfl

theorem Likeness.isOneOfKinds (kinds : List Kind) :
    (Step.isOneOfKinds kinds).Agrees R (Step.isOneOfKinds kinds) := by
  refine Check.Agrees.assertion (fun v w h => ?_) _ _ _ _
  rw [(hR.alike h).kind]
  exact agree_after _ fun actual => .ok rfl

theorem Likeness.sizeCheck (test : Nat → Option String) :
    Check.Agrees R (sizeCheck test) (sizeCheck test) := by
  intro v w h
  simp only [Attest.sizeCheck, sizeOr]
  rw [(hR.alike h).size, (hR.alike h).kind]
  exact agree_problem _

theorem Likeness.anyEquals {expected : Value} (he : known expected) :
    ∀ {items items' : List Value}, List.Forall₂ R items items' →
      anyEquals expected items = anyEquals expected items'
  | _, _, .nil => rfl
  | _, _, .cons hab hrest => by
    rw [Attest.anyEquals, Attest.anyEquals, hR.equals hab he, Likeness.anyEquals he hrest]

theorem Likeness.hasElement {element : Value} (he : known element) (limit limit' : Int) :
    Agree (Step.Agrees R) (Step.hasElement limit element) (Step.hasElement limit' element) := by
  refine (agree_excerpt Iff.rfl limit limit').bind fun shown shown' _ => .ok ?_
  refine Check.Agrees.assertion (fun v w h => ?_) _ _ _ _
  cases hR.alike h with
  | array hitems =>
    dsimp only
    rw [hR.anyEquals he hitems]
    refine agree_after _ fun found => .ok ?_
    cases found <;> rfl
  | text s =>
    cases element with
    | str part =>
      dsimp only
      split
      · exact .ok rfl
      · exact (hR.excerpt h limit limit').bind fun _ _ _ => .ok rfl
    | _ => exact .ok rfl
  | object => exact .ok rfl
  | atom hv hw hkind =>
    split
    · exact hv.elim
    · exact hv.elim
    · split
      · exact hw.elim
      · exact hw.elim
      · rw [hkind]
        exact agree_after _ fun kind => .ok rfl

/-! ### Equality -/

theorem Likeness.mustBe {expected : Value} (he : known expected) (limit limit' : Int) :
    Agree (Step.Agrees R) (Step.mustBe limit expected) (Step.mustBe limit' expected) := by
  refine (agree_excerpt Iff.rfl limit limit').bind fun shown shown' _ => .ok ?_
  refine Check.Agrees.assertion (fun v w h => ?_) _ _ _ _
  rw [hR.equals h he]
  refine agree_after _ fun equal => ?_
  cases equal with
  | true => exact .ok rfl
  | false => exact (hR.excerpt h limit limit').bind fun _ _ _ => .ok rfl

theorem Likeness.mustNotBe {unexpected : Value} (he : known unexpected) (limit limit' : Int) :
    Agree (Step.Agrees R) (Step.mustNotBe limit unexpected) (Step.mustNotBe limit' unexpected) := by
  refine (agree_excerpt Iff.rfl limit limit').bind fun shown shown' _ => .ok ?_
  refine Check.Agrees.assertion (fun v w h => ?_) _ _ _ _
  rw [hR.equals h he]
  refine agree_after _ fun equal => .ok ?_
  cases equal <;> rfl

omit hR in
theorem agree_expectationText (path : Value) (expected : Option Value) (limit limit' : Int) :
    Agree (fun _ _ => True) (expectationText limit path expected)
      (expectationText limit' path expected) := by
  refine agree_after _ fun shown => ?_
  cases expected with
  | none => exact .ok trivial
  | some v => exact (agree_excerpt Iff.rfl limit limit').bind fun _ _ _ => .ok trivial

theorem Likeness.reach {root root' v w : Value} (hroot : R root root') (path : Value)
    (h : R v w) : Agree (Option.Rel R) (reach root path v) (reach root' path w) := by
  refine agree_after _ fun text => hR.walk ?_
  split
  · exact hroot
  · exact h

section

variable {root root' : Value} {expected : Option Value} (hroot : R root root')
  (he : ∀ v ∈ expected, known v)

include hroot he

theorem Likeness.mustContain (path : Value) (limit limit' : Int) :
    Agree (Step.Agrees R) (Step.mustContain limit root path expected)
      (Step.mustContain limit' root' path expected) := by
  refine agree_after _ fun shownPath => ?_
  refine (agree_expectationText path expected limit limit').bind fun text text' _ => .ok ?_
  refine Check.Agrees.assertion (fun v w h => ?_) _ _ _ _
  refine (hR.reach hroot path h).bind fun actual actual' hactual => ?_
  cases hactual with
  | none => exact .ok rfl
  | some hactual =>
    cases expected with
    | none => exact .ok rfl
    | some wanted =>
      dsimp only
      rw [hR.equals hactual (he wanted rfl)]
      refine agree_after _ fun equal => ?_
      cases equal with
      | true => exact .ok rfl
      | false =>
        refine (agree_excerpt Iff.rfl limit limit').bind fun _ _ _ => ?_
        exact (hR.excerpt hactual limit limit').bind fun _ _ _ => .ok rfl

theorem Likeness.mustNotContain (path : Value) (limit limit' : Int) :
    Agree (Step.Agrees R) (Step.mustNotContain limit root path expected)
      (Step.mustNotContain limit' root' path expected) := by
  refine agree_after _ fun shownPath => ?_
  refine (agree_expectationText path expected limit limit').bind fun text text' _ => .ok ?_
  refine Check.Agrees.assertion (fun v w h => ?_) _ _ _ _
  refine (hR.reach hroot path h).bind fun actual actual' hactual => ?_
  cases hactual with
  | none => exact .ok rfl
  | some hactual =>
    cases expected with
    | none => exact .ok rfl
    | some wanted =>
      dsimp only
      rw [hR.equals hactual (he wanted rfl)]
      refine agree_after _ fun equal => ?_
      cases equal with
      | true => exact (agree_excerpt Iff.rfl limit limit').bind fun _ _ _ => .ok rfl
      | false => exact .ok rfl

end

/-! ### Texts -/

theorem Likeness.textCheck (test : String → Except Fault Bool) (problem : String) :
    Check.Agrees R (textCheck test problem) (textCheck test problem) := by
  intro v w h
  cases hR.alike h with
  | text s => exact agree_problem _
  | array | object => exact .ok rfl
  | atom hv hw hkind =>
    unfold Attest.textCheck
    split
    · exact hv.elim
    · split
      · exact hw.elim
      · rw [hkind]
        exact agree_after _ fun kind => .ok rfl

theorem Likeness.mustMatch (pattern : Value) :
    Agree (Step.Agrees R) (Step.mustMatch pattern) (Step.mustMatch pattern) := by
  refine agree_after _ fun readiness => ?_
  cases pattern
  all_goals
    refine agree_after _ fun shown => .ok fun vs ws hvs => ?_
    cases readiness with
    | broken problem => exact .ok ⟨rfl, hvs⟩
    | ready compiled => exact Check.Agrees.checkEvery (hR.textCheck _ _) _ _ hvs

omit hR in
theorem count_agree (relation : Relation) (n : Value) :
    Agree (Step.Agrees R) (Step.count relation n) (Step.count relation n) := by
  refine agree_after _ fun shown => .ok fun vs ws hvs => ?_
  dsimp only
  rw [hvs.length_eq]
  refine agree_after _ fun holds => .ok ?_
  cases holds with
  | true => exact ⟨rfl, hvs⟩
  | false => exact ⟨rfl, hvs⟩

end

/-! ### Queries and predicates -/

/-- A relation that goes over to what is found in a value. -/
def Finder.Respects (R : Value → Value → Prop) (find : Finder) : Prop :=
  ∀ v found, R v v → find v = .ok found → ∀ x ∈ found, R x x

theorem Finder.Respects.selectEach {find : Finder} (hfind : find.Respects R)
    {vs found : List Value} (hvs : ∀ v ∈ vs, R v v) (h : selectEach find vs = .ok found) :
    ∀ x ∈ found, R x x := by
  induction vs generalizing found with
  | nil =>
    cases h
    exact fun x hx => absurd hx List.not_mem_nil
  | cons v rest ih =>
    obtain ⟨xs, hxs, h⟩ := bind_eq_ok h
    obtain ⟨others, hothers, h⟩ := bind_eq_ok h
    cases h
    obtain ⟨hv, hrest⟩ := List.forall_mem_cons.mp hvs
    exact List.forall_mem_append.mpr ⟨hfind v xs hv hxs, ih hrest hothers⟩

section

variable (hR : ∀ v w, R v w → v = w)
include hR

theorem select_agree {queries : QueryEngine} {expression : Value}
    (hfind : ∀ find, queries expression = .ok find → find.Respects R) :
    Agree (Step.Agrees R) (Step.select queries expression) (Step.select queries expression) := by
  refine agree_after _ fun shown => .ok fun vs ws hvs => ?_
  obtain rfl : vs = ws := List.forall₂_eq_eq_eq ▸ hvs.imp hR
  dsimp only
  split
  · exact .ok ⟨rfl, hvs⟩
  · split
    · exact .ok ⟨rfl, .nil⟩
    · exact .error rfl
    · next find hquery =>
      cases hfound : Attest.selectEach find vs with
      | error fault => exact .error rfl
      | ok found =>
        have hsame := (hfind find hquery).selectEach (List.forall₂_same.mp hvs) hfound
        exact .ok ⟨rfl, List.forall₂_same.mpr hsame⟩

theorem mustSatisfy_agree (description : Value) (predicate : Predicate) :
    Agree (Step.Agrees R) (Step.mustSatisfy description predicate)
      (Step.mustSatisfy description predicate) := by
  refine agree_after _ fun shown => .ok ?_
  refine Check.Agrees.assertion (fun v w h => ?_) _ _ _ _
  rw [hR v w h]
  exact agree_problem _

end

/-! ### Operations -/

/-- An operation that respects a likeness: what it compares candidates with is known. Only equal
values are put to queries and predicates, and the likeness goes over to what a query finds. -/
def Operation.Fits (R : Value → Value → Prop) (known : Value → Prop) : Operation → Prop
  | .select queries expression => (∀ v w, R v w → v = w) ∧
      ∀ find, queries expression = .ok find → find.Respects R
  | .mustSatisfy _ _ => ∀ v w, R v w → v = w
  | .containing _ expected | .hasElement expected | .mustBe expected | .mustNotBe expected =>
    known expected
  | .matching criteria => ∀ entry ∈ criteria, known entry.2
  | .mustContain _ expected | .mustNotContain _ expected => ∀ v ∈ expected, known v
  | _ => True

/-- **The steps of an operation agree,** for like documents and whatever the limits. -/
theorem Likeness.step (hR : Likeness R known) {operation : Operation}
    (h : operation.Fits R known) {root root' : Value} (hroot : R root root') (limit limit' : Int) :
    Agree (Step.Agrees R) (operation.step root limit) (operation.step root' limit') := by
  cases operation with
  | atPath path => exact hR.atPath path hroot
  | withObjects => exact .ok hR.withObjects
  | select queries expression => exact select_agree h.1 h.2
  | containing key expected =>
    refine agree_after _ fun shownKey => agree_after _ fun shown => .ok fun vs ws hvs => ?_
    have htest (v w : Value) (hvw : R v w) := hR.holdsEntry key hvw h
    refine (forall₂_keep htest hvs).bind fun kept kept' hkept => .ok ?_
    exact ⟨rfl, hkept⟩
  | matching criteria =>
    refine agree_after _ fun shown => .ok fun vs ws hvs => ?_
    refine (hR.keepMatching h hvs).bind fun kept kept' hkept => .ok ?_
    exact ⟨rfl, hkept⟩
  | isKind kind => exact .ok (hR.isKind kind)
  | isOneOfKinds kinds => exact .ok (hR.isOneOfKinds kinds)
  | isEmpty => exact .ok (Check.Agrees.assertion (hR.sizeCheck _) _ _ _ _)
  | isNotEmpty => exact .ok (Check.Agrees.assertion (hR.sizeCheck _) _ _ _ _)
  | hasSize n =>
    exact agree_after _ fun shown => .ok (Check.Agrees.assertion (hR.sizeCheck _) _ _ _ _)
  | hasElement element => exact hR.hasElement h limit limit'
  | mustBe expected => exact hR.mustBe h limit limit'
  | mustNotBe unexpected => exact hR.mustNotBe h limit limit'
  | mustContain path expected => exact hR.mustContain hroot h path limit limit'
  | mustNotContain path unexpected => exact hR.mustNotContain hroot h path limit limit'
  | mustBeginWith affix =>
    exact agree_after _ fun shown => .ok (Check.Agrees.assertion (hR.textCheck _ _) _ _ _ _)
  | mustEndWith affix =>
    exact agree_after _ fun shown => .ok (Check.Agrees.assertion (hR.textCheck _ _) _ _ _ _)
  | mustSatisfy description predicate => exact mustSatisfy_agree h description predicate
  | mustMatch pattern => exact hR.mustMatch pattern
  | count relation n => exact count_agree relation n

end Attest

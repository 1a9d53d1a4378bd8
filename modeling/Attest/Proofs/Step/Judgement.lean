import Mathlib.Data.List.Infix
import Attest.Proofs.Value.Shown
import Attest.Step.Operation

/-!
# What assertions ask for

Fourteen operations judge candidates by a check of one of them. What differs is the property that
the check decides. The rest is theirs in common: an assertion leaves the candidates as they are,
passes iff there is one and all of them have the property, and otherwise tells the problem with
each one that has not. All of this is said of runs that come to an end, so an operation only has to
be compared with its property where its check gives an answer.

## Main definitions

* `Check.Decides` — a check that has no problem exactly with what has a property
* `Step.Judged` — what an assertion of a property makes of its candidates
* `Step.Asserts`, `Step.Affirms` — the steps with such a check, which may be interrupted
* `Path.Finds`, `Path.Spares` — what is asked of a path
* `Operation.Asks` — the property that an operation asks for
* `Operation.Judges` — the operations that judge each candidate

## Main results

* `Check.Decides.judged` — a step that checks every candidate
* `Operation.Judges.asserts` — an operation asserts the property that it asks for
* `Operation.judges_every_candidate` — assertions only read, and judge every candidate
-/

namespace Attest

/-! ### Checking every candidate -/

/-- If the computation comes to an end, there is no problem iff the statement holds. -/
def Settles (x : Except Fault (Option String)) (p : Prop) : Prop :=
  ∀ problem, x = .ok problem → (problem = none ↔ p)

/-- The computation comes to an end without a problem iff the statement holds. -/
def Grants (x : Except Fault (Option String)) (p : Prop) : Prop := x = .ok none ↔ p

/-- The check has no problem exactly with the values that have the property. -/
def Check.Decides (check : Check) (P : Value → Prop) : Prop := ∀ v, Settles (check v) (P v)

/-- A problem with the candidate at a position, as messages show it. -/
def positioned (problem : Nat × String) : String :=
  "[" ++ toString problem.1 ++ "] " ++ problem.2

/-- What an assertion of a property makes of its candidates. It leaves them, and passes iff there is
one and all have the property. If it fails although there is one, the message is put together from
problems at exactly the positions of those that have not, in increasing order, and each problem is
what the assertion says of that candidate alone. -/
structure Step.Judged (s : Step) (P : Value → Prop) (vs : List Value) (ran : Ran) : Prop where
  candidates : ran.candidates = vs
  passed : ran.passed = true ↔ vs ≠ [] ∧ ∀ v ∈ vs, P v
  message : vs ≠ [] → ran.passed = false → ∃ problems : List (Nat × String),
    ran.message = "; ".intercalate (problems.map positioned)
    ∧ problems.Pairwise (fun p q => p.1 < q.1)
    ∧ (∀ i, i ∈ problems.map Prod.fst ↔ ∃ v, vs[i]? = some v ∧ ¬ P v)
    ∧ ∀ p ∈ problems, ∃ v, vs[p.1]? = some v
      ∧ s.run [v] = .ok ⟨false, positioned (0, p.2), [v]⟩

variable {check : Check} {P : Value → Prop} {vs : List Value} {ran : Ran}

/-- The problems are found in order, and are those of the checks. -/
theorem problemsFrom_eq_ok {index : Nat} {texts : List String}
    (h : problemsFrom check index vs = .ok texts) :
    (∀ v ∈ vs, Succeeds (check v)) ∧ ∃ problems : List (Nat × String),
      texts = problems.map positioned
      ∧ problems.Pairwise (fun p q => p.1 < q.1)
      ∧ ∀ p, p ∈ problems ↔ ∃ i v, p.1 = index + i ∧ vs[i]? = some v
        ∧ check v = .ok (some p.2) := by
  induction vs generalizing index texts with
  | nil =>
    cases h
    exact ⟨fun _ hv => absurd hv List.not_mem_nil, [], rfl, .nil, by simp⟩
  | cons v rest ih =>
    rw [problemsFrom] at h
    obtain ⟨problem, hproblem, h⟩ := bind_eq_ok h
    obtain ⟨others, hothers, h⟩ := bind_eq_ok h
    obtain ⟨hrest, problems, rfl, hsorted, hmem⟩ := ih hothers
    refine ⟨List.forall_mem_cons.mpr ⟨⟨_, hproblem⟩, hrest⟩, ?_⟩
    -- the positions in the rest are one higher
    have hlater (p : Nat × String) : p ∈ problems ↔ ∃ i v', p.1 = index + (i + 1)
        ∧ (v :: rest)[i + 1]? = some v' ∧ check v' = .ok (some p.2) := by
      simp only [hmem, List.getElem?_cons_succ, Nat.add_assoc, Nat.add_comm 1]
    cases problem with
    | none =>
      cases h
      refine ⟨problems, rfl, hsorted, fun p => (hlater p).trans ⟨?_, ?_⟩⟩
      · rintro ⟨i, v', hp⟩
        exact ⟨i + 1, v', hp⟩
      · rintro ⟨_ | i, v', hp, hv', hcheck⟩
        · cases hv'
          rw [hproblem] at hcheck
          cases hcheck
        · exact ⟨i, v', hp, hv', hcheck⟩
    | some text =>
      cases h
      refine ⟨(index, text) :: problems, rfl, List.pairwise_cons.mpr ⟨fun p hp => ?_, hsorted⟩,
        fun p => List.mem_cons.trans ⟨?_, ?_⟩⟩
      · obtain ⟨i, _, hi, _⟩ := (hlater p).mp hp
        omega
      · rintro (rfl | hp)
        · exact ⟨0, v, rfl, rfl, hproblem⟩
        · obtain ⟨i, v', hp⟩ := (hlater p).mp hp
          exact ⟨i + 1, v', hp⟩
      · rintro ⟨_ | i, v', hp, hv', hcheck⟩
        · cases hv'
          rw [hproblem] at hcheck
          cases hcheck
          exact .inl (Prod.ext hp rfl)
        · exact .inr ((hlater p).mpr ⟨i, v', hp, hv', hcheck⟩)

/-- From the first candidate on, there are problems with exactly those without the property. -/
theorem Check.Decides.problems (h : check.Decides P) {texts : List String}
    (htexts : problemsFrom check 0 vs = .ok texts) :
    ∃ problems : List (Nat × String), texts = problems.map positioned
      ∧ problems.Pairwise (fun p q => p.1 < q.1)
      ∧ (∀ i, i ∈ problems.map Prod.fst ↔ ∃ v, vs[i]? = some v ∧ ¬ P v)
      ∧ ∀ p ∈ problems, ∃ v, vs[p.1]? = some v ∧ check v = .ok (some p.2) := by
  obtain ⟨hchecks, problems, htexts, hsorted, hmem⟩ := problemsFrom_eq_ok htexts
  simp only [Nat.zero_add] at hmem
  have hfound (p : Nat × String) (hp : p ∈ problems) :
      ∃ v, vs[p.1]? = some v ∧ check v = .ok (some p.2) := by
    obtain ⟨i, v, rfl, hv, hcheck⟩ := (hmem p).mp hp
    exact ⟨v, hv, hcheck⟩
  refine ⟨problems, htexts, hsorted, fun i => List.mem_map.trans ⟨?_, ?_⟩, hfound⟩
  · rintro ⟨p, hp, rfl⟩
    obtain ⟨v, hv, hcheck⟩ := hfound p hp
    exact ⟨v, hv, fun hP => nomatch (h v _ hcheck).mpr hP⟩
  · rintro ⟨v, hv, hP⟩
    obtain ⟨problem, hcheck⟩ := hchecks v (List.mem_of_getElem? hv)
    cases problem with
    | none => exact absurd ((h v none hcheck).mp rfl) hP
    | some text => exact ⟨(i, text), (hmem _).mpr ⟨i, v, rfl, hv, hcheck⟩, rfl⟩

/-- What the step says of one candidate with a problem. -/
theorem checkEvery_singleton {okMessage text : String} {v : Value}
    (h : check v = .ok (some text)) :
    checkEvery check okMessage [v] = .ok ⟨false, positioned (0, text), [v]⟩ := by
  simp [checkEvery, problemsFrom, h, positioned, bind, Except.bind, pure, Except.pure]

/-- **A step that checks every candidate asserts what its check decides.** -/
theorem Check.Decides.judged (h : check.Decides P) {description okMessage : String}
    (hran : (Step.assertion description okMessage check).run vs = .ok ran) :
    (Step.assertion description okMessage check).Judged P vs ran := by
  replace hran : checkEvery check okMessage vs = .ok ran := hran
  unfold checkEvery at hran
  split at hran
  · next hempty =>
    cases hran
    rw [List.isEmpty_iff.mp hempty]
    exact ⟨rfl, by simp, fun hne => absurd rfl hne⟩
  · next hne =>
    rw [List.isEmpty_iff] at hne
    obtain ⟨texts, htexts, hran⟩ := bind_eq_ok hran
    obtain ⟨problems, rfl, hsorted, hfails, hfound⟩ := h.problems htexts
    have hnone : problems = [] ↔ ∀ v ∈ vs, P v := by
      rw [← List.map_eq_nil_iff (f := Prod.fst), List.eq_nil_iff_forall_not_mem]
      simp only [hfails, not_exists, not_and, Classical.not_not]
      exact ⟨fun hall v hv => (List.mem_iff_getElem?.mp hv).elim fun i hi => hall i v hi,
        fun hall i v hv => hall v (List.mem_of_getElem? hv)⟩
    by_cases hproblems : problems = []
    · subst hproblems
      cases hran
      exact ⟨rfl, iff_of_true rfl ⟨hne, hnone.mp rfl⟩, fun _ hfailed => nomatch hfailed⟩
    · have hshown : (problems.map positioned).isEmpty = false := by simpa using hproblems
      simp only [hshown, Bool.false_eq_true, if_false] at hran
      cases hran
      refine ⟨rfl, iff_of_false Bool.false_ne_true fun hall => hproblems (hnone.mpr hall.2),
        fun _ _ => ⟨problems, rfl, hsorted, hfails, fun p hp => ?_⟩⟩
      obtain ⟨v, hv, hcheck⟩ := hfound p hp
      exact ⟨v, hv, checkEvery_singleton hcheck⟩

/-! ### The properties -/

/-- The size of arrays, objects and strings. -/
inductive Value.Measures : Value → Nat → Prop where
  | items (node : NodeId) (form : ArrayForm) (items : List Value) :
    Measures (.array node form items) items.length
  | entries (node : NodeId) (form : ObjectForm) (entries : Entries) :
    Measures (.object node form entries) entries.length
  | text (s : String) : Measures (.str s) s.length

/-- An array has an element equal to the value, or a string has the text in it. -/
inductive Value.Has : Value → Value → Prop where
  | item {node : NodeId} {form : ArrayForm} {items : List Value} {element v : Value}
      (hv : v ∈ items) (he : v.equals element = .ok true) : Has (.array node form items) element
  | part {part text : String} (h : part.toList <:+: text.toList) : Has (.str text) (.str part)

/-- A path leads somewhere from a candidate, and to a value equal to the one expected there, if
there is one. -/
def Path.Finds (root : Value) (path : String) (expected : Option Value) (candidate : Value) :
    Prop :=
  ∃ x, Path.followFrom candidate root path = .ok (some x)
    ∧ ∀ e ∈ expected, x.equals e = .ok true

/-- A path leads nowhere from a candidate or, if a value is given, to one that is not equal. -/
def Path.Spares (root : Value) (path : String) (unexpected : Option Value) (candidate : Value) :
    Prop :=
  Path.followFrom candidate root path = .ok none
    ∨ ∃ x, Path.followFrom candidate root path = .ok (some x)
      ∧ ∃ e ∈ unexpected, x.equals e = .ok false

namespace Operation

/-- The property that an operation asks for. -/
def Asks (root : Value) : Operation → Value → Prop
  | .isKind kind, v => v.kind = .ok kind
  | .isOneOfKinds kinds, v => ∃ kind ∈ kinds, v.kind = .ok kind
  | .isEmpty, v => v.Measures 0
  | .isNotEmpty, v => ∃ size, v.Measures size ∧ 0 < size
  | .hasSize (.int n), v => ∃ size : Nat, v.Measures size ∧ (size : Int) = n
  | .hasElement element, v => v.Has element
  | .mustBe expected, v => v.equals expected = .ok true
  | .mustNotBe unexpected, v => v.equals unexpected = .ok false
  | .mustContain (.str path) expected, v => Path.Finds root path expected v
  | .mustNotContain (.str path) unexpected, v => Path.Spares root path unexpected v
  | .mustBeginWith (.str affix), v => ∃ text, v = .str text ∧ affix.toList <+: text.toList
  | .mustEndWith (.str affix), v => ∃ text, v = .str text ∧ affix.toList <:+ text.toList
  | .mustSatisfy _ predicate, v => predicate v = .ok true
  | .mustMatch pattern, v => ∃ compiled text, patternOf pattern = .ok (.ready compiled)
      ∧ v = .str text ∧ compiled.matchesWhole text = true
  | _, _ => False

/-- The operations that judge each candidate: a size is an integer, paths and affixes are texts, and
a pattern is not broken. -/
def Judges : Operation → Prop
  | .isKind _ | .isOneOfKinds _ | .isEmpty | .isNotEmpty | .hasSize (.int _) => True
  | .hasElement _ | .mustBe _ | .mustNotBe _ | .mustSatisfy .. => True
  | .mustContain (.str _) _ | .mustNotContain (.str _) _ => True
  | .mustBeginWith (.str _) | .mustEndWith (.str _) => True
  | .mustMatch pattern => ∃ compiled, patternOf pattern = .ok (.ready compiled)
  | _ => False

end Operation

/-! ### Checks of one candidate -/

section

variable {α : Type} {x : Except Fault α} {g : α → Except Fault (Option String)} {p q : Prop}
  {text : String}

theorem grants_none (hp : p) : Grants (.ok none) p := iff_of_true rfl hp

theorem grants_some (hp : ¬ p) : Grants (.ok (some text)) p := iff_of_false (nomatch ·) hp

/-- A problem of which the text has still to be put together. -/
theorem grants_problem {g : α → String} (hp : ¬ p) :
    Grants (x >>= fun a => .ok (some (g a))) p := by
  refine iff_of_false (fun h => ?_) hp
  obtain ⟨_, _, h⟩ := bind_eq_ok h
  cases h

theorem grants_bind (hok : ∀ a, x = .ok a → Grants (g a) p)
    (herror : ∀ fault, x = .error fault → ¬ p) : Grants (x >>= g) p := by
  cases x with
  | error fault => exact iff_of_false (nomatch ·) (herror fault rfl)
  | ok a => exact hok a rfl

theorem Grants.settles {x : Except Fault (Option String)} (h : Grants x p) : Settles x p := by
  rintro problem rfl
  exact Except.ok.injEq problem none ▸ h

theorem Settles.congr {x : Except Fault (Option String)} (h : Settles x p) (hpq : p ↔ q) :
    Settles x q :=
  fun problem hx => (h problem hx).trans hpq

theorem settles_none (hp : p) : Settles (.ok none) p := (grants_none hp).settles

theorem settles_some (hp : ¬ p) : Settles (.ok (some text)) p := (grants_some hp).settles

theorem settles_problem {g : α → String} (hp : ¬ p) :
    Settles (x >>= fun a => .ok (some (g a))) p :=
  (grants_problem hp).settles

theorem settles_bind (h : ∀ a, x = .ok a → Settles (g a) p) : Settles (x >>= g) p :=
  fun problem hx =>
    let ⟨a, ha, hg⟩ := bind_eq_ok hx
    h a ha problem hg

theorem settles_ite {c : Prop} [Decidable c] (h : c ↔ p) :
    Settles (.ok (if c then none else some text)) p := by
  split
  · next hc => exact settles_none (h.mp hc)
  · next hc => exact settles_some (mt h.mpr hc)

end

/-! ### Kinds and sizes -/

theorem Value.Measures.unique {v : Value} {m n : Nat} (hm : v.Measures m) (hn : v.Measures n) :
    m = n := by
  cases hm <;> cases hn <;> rfl

theorem sizeOr_eq_ok {v : Value} {r : Nat ⊕ String} (h : sizeOr v = .ok r) :
    (∃ n, r = .inl n ∧ v.Measures n) ∨ (∃ text, r = .inr text) ∧ ∀ n, ¬ v.Measures n := by
  cases v with
  | array node form items =>
    cases h
    exact .inl ⟨_, rfl, .items node form items⟩
  | object node form entries =>
    cases h
    exact .inl ⟨_, rfl, .entries node form entries⟩
  | str s =>
    cases h
    exact .inl ⟨_, rfl, .text s⟩
  | null | bool | int | float =>
    cases h
    exact .inr ⟨⟨_, rfl⟩, fun n hn => nomatch hn⟩
  | set | bytes | date | timestamp | pattern | missing => cases h

theorem sizeCheck_settles {test : Nat → Option String} {Q : Nat → Prop}
    (h : ∀ size, test size = none ↔ Q size) (v : Value) :
    Settles (sizeCheck test v) (∃ size, v.Measures size ∧ Q size) := by
  refine settles_bind fun r hr => ?_
  rcases sizeOr_eq_ok hr with ⟨n, rfl, hn⟩ | ⟨⟨text, rfl⟩, hnone⟩
  · intro problem hproblem
    cases hproblem
    refine (h n).trans ⟨fun hQ => ⟨n, hn, hQ⟩, ?_⟩
    rintro ⟨m, hm, hQ⟩
    rwa [hn.unique hm]
  · exact settles_some fun ⟨n, hn, _⟩ => hnone n hn

theorem isSize_int {n : Int} {size : Nat} : isSize (.int n) size = true ↔ (size : Int) = n := by
  simp [isSize, Value.number?, Value.compareNumbers?]

/-! ### Elements and texts -/

theorem anyEquals_eq_ok {expected : Value} {found : Bool} : ∀ {items : List Value},
    anyEquals expected items = .ok found →
      (found = true ↔ ∃ v ∈ items, v.equals expected = .ok true)
  | [], h => by
    cases h
    simp
  | v :: rest, h => by
    rw [anyEquals] at h
    obtain ⟨same, hsame, h⟩ := bind_eq_ok h
    cases same with
    | true =>
      cases h
      exact iff_of_true rfl ⟨v, List.mem_cons_self, hsame⟩
    | false =>
      rw [anyEquals_eq_ok h]
      simp [hsame]

theorem occursIn_iff {part : List Char} : ∀ {text : List Char},
    occursIn part text = true ↔ part <:+: text
  | [] => by simp [occursIn]
  | c :: rest => by
    rw [occursIn, Bool.or_eq_true, occursIn_iff, List.isPrefixOf_iff_prefix, List.infix_cons_iff]

theorem textCheck_settles {test : String → Except Fault Bool} {Q : String → Prop}
    (h : ∀ text holds, test text = .ok holds → (holds = true ↔ Q text)) (problem : String)
    (v : Value) : Settles (textCheck test problem v) (∃ text, v = .str text ∧ Q text) := by
  unfold textCheck
  split
  · next text =>
    refine settles_bind fun holds hholds => ?_
    have hQ : holds = true ↔ ∃ text', Value.str text = .str text' ∧ Q text' := by
      simp [h text holds hholds]
    split
    · next ht => exact settles_none (hQ.mp ht)
    · next hf => exact settles_problem (mt hQ.mpr hf)
  · next hother =>
    refine settles_problem ?_
    rintro ⟨text, rfl, -⟩
    exact hother text rfl

/-! ### The operations -/

/-- The steps that assert a property of every candidate. -/
def Step.Asserts (s : Step) (P : Value → Prop) : Prop :=
  ∃ description okMessage check, s = .assertion description okMessage check ∧ check.Decides P

/-- The steps that check every candidate, and come to an end without a problem on exactly those
that have the property. -/
def Step.Affirms (s : Step) (P : Value → Prop) : Prop :=
  ∃ description okMessage check, s = .assertion description okMessage check
    ∧ ∀ v, Grants (check v) (P v)

theorem Step.Affirms.asserts {s : Step} {P : Value → Prop} (h : s.Affirms P) : s.Asserts P := by
  obtain ⟨description, okMessage, check, rfl, hcheck⟩ := h
  exact ⟨_, _, _, rfl, fun v => (hcheck v).settles⟩

namespace Step

variable {s : Step} {limit : Int} {root : Value}

theorem isKind_asserts (kind : Kind) :
    (isKind kind).Asserts fun v => v.kind = .ok kind := by
  refine ⟨_, _, _, rfl, fun v => settles_bind fun actual hactual => settles_ite ?_⟩
  simp [hactual]

theorem isOneOfKinds_asserts (kinds : List Kind) :
    (isOneOfKinds kinds).Asserts fun v => ∃ kind ∈ kinds, v.kind = .ok kind := by
  refine ⟨_, _, _, rfl, fun v => settles_bind fun actual hactual => settles_ite ?_⟩
  simp [hactual]

theorem isEmpty_asserts : isEmpty.Asserts fun v => v.Measures 0 := by
  refine ⟨_, _, _, rfl, fun v => ?_⟩
  refine (sizeCheck_settles (Q := (· = 0)) (fun size => ?_) v).congr (by simp)
  split <;> simp [*]

theorem isNotEmpty_asserts : isNotEmpty.Asserts fun v => ∃ size, v.Measures size ∧ 0 < size := by
  refine ⟨_, _, _, rfl, sizeCheck_settles fun size => ?_⟩
  split <;> simp [*]

theorem hasSize_asserts {n : Int} (h : hasSize (.int n) = .ok s) :
    s.Asserts fun v => ∃ size : Nat, v.Measures size ∧ (size : Int) = n := by
  obtain ⟨shown, _, h⟩ := bind_eq_ok h
  cases h
  refine ⟨_, _, _, rfl, sizeCheck_settles fun size => ?_⟩
  rw [← isSize_int]
  split <;> simp [*]

theorem hasElement_asserts {element : Value} (h : hasElement limit element = .ok s) :
    s.Asserts fun v => v.Has element := by
  obtain ⟨shown, -, h⟩ := bind_eq_ok h
  cases h
  refine ⟨_, _, _, rfl, fun v => ?_⟩
  dsimp only
  split
  · next node form items =>
    refine settles_bind fun found hfound => settles_ite ((anyEquals_eq_ok hfound).trans ?_)
    constructor
    · rintro ⟨v, hv, he⟩
      exact .item hv he
    · rintro (⟨hv, he⟩ | _)
      exact ⟨_, hv, he⟩
  · next text =>
    split
    · next part =>
      have hpart : occursIn part.toList text.toList = true ↔ (Value.str text).Has (.str part) := by
        refine occursIn_iff.trans ⟨.part, ?_⟩
        rintro (_ | h)
        exact h
      split
      · next ht => exact settles_none (hpart.mp ht)
      · next hf => exact settles_problem (mt hpart.mpr hf)
    · next hother =>
      refine settles_some ?_
      rintro (_ | h)
      exact hother _ rfl
  · next harray hstr =>
    refine settles_problem ?_
    rintro (_ | _)
    · exact harray _ _ _ rfl
    · exact hstr _ rfl

theorem mustBe_affirms {expected : Value} (h : mustBe limit expected = .ok s) :
    s.Affirms fun v => v.equals expected = .ok true := by
  obtain ⟨shown, _, h⟩ := bind_eq_ok h
  cases h
  refine ⟨_, _, _, rfl, fun v => grants_bind (fun same hsame => ?_) (by simp +contextual)⟩
  cases same with
  | true => exact grants_none hsame
  | false => exact grants_problem (by simp [hsame])

theorem mustNotBe_affirms {unexpected : Value} (h : mustNotBe limit unexpected = .ok s) :
    s.Affirms fun v => v.equals unexpected = .ok false := by
  obtain ⟨shown, _, h⟩ := bind_eq_ok h
  cases h
  refine ⟨_, _, _, rfl, fun v => grants_bind (fun same hsame => ?_) (by simp +contextual)⟩
  cases same with
  | true => exact grants_some (by simp [hsame])
  | false => exact grants_none hsame

theorem mustContain_affirms {path : String} {expected : Option Value}
    (h : mustContain limit root (.str path) expected = .ok s) :
    s.Affirms (Path.Finds root path expected) := by
  obtain ⟨shownPath, _, h⟩ := bind_eq_ok h
  obtain ⟨text, _, h⟩ := bind_eq_ok h
  cases h
  refine ⟨_, _, _, rfl, fun v => grants_bind (fun found hfound => ?_) fun fault hfault => ?_⟩
  · replace hfound : Path.followFrom v root path = .ok found := hfound
    cases found with
    | none => exact grants_some (by simp [Path.Finds, hfound])
    | some actual =>
      cases expected with
      | none => exact grants_none ⟨actual, hfound, by simp⟩
      | some wanted =>
        refine grants_bind (fun same hsame => ?_) fun fault hfault => ?_
        · cases same with
          | true => exact grants_none ⟨actual, hfound, by simpa using hsame⟩
          | false =>
            have hnot : ¬ Path.Finds root path (some wanted) v := by
              simp [Path.Finds, hfound, hsame]
            exact grants_bind (fun _ _ => grants_problem hnot) fun _ _ => hnot
        · simp [Path.Finds, hfound, hfault]
  · replace hfault : Path.followFrom v root path = .error fault := hfault
    simp [Path.Finds, hfault]

theorem mustNotContain_affirms {path : String} {unexpected : Option Value}
    (h : mustNotContain limit root (.str path) unexpected = .ok s) :
    s.Affirms (Path.Spares root path unexpected) := by
  obtain ⟨shownPath, _, h⟩ := bind_eq_ok h
  obtain ⟨text, _, h⟩ := bind_eq_ok h
  cases h
  refine ⟨_, _, _, rfl, fun v => grants_bind (fun found hfound => ?_) fun fault hfault => ?_⟩
  · replace hfound : Path.followFrom v root path = .ok found := hfound
    cases found with
    | none => exact grants_none (.inl hfound)
    | some actual =>
      cases unexpected with
      | none => exact grants_some (by simp [Path.Spares, hfound])
      | some wanted =>
        refine grants_bind (fun same hsame => ?_) fun fault hfault => ?_
        · cases same with
          | true => exact grants_problem (by simp [Path.Spares, hfound, hsame])
          | false => exact grants_none (.inr ⟨actual, hfound, wanted, rfl, hsame⟩)
        · simp [Path.Spares, hfound, hfault]
  · replace hfault : Path.followFrom v root path = .error fault := hfault
    simp [Path.Spares, hfault]

theorem mustBeginWith_asserts {affix : String} (h : mustBeginWith (.str affix) = .ok s) :
    s.Asserts fun v => ∃ text, v = .str text ∧ affix.toList <+: text.toList := by
  obtain ⟨shown, _, h⟩ := bind_eq_ok h
  cases h
  refine ⟨_, _, _, rfl, textCheck_settles (fun text holds hholds => ?_) _⟩
  cases hholds
  exact List.isPrefixOf_iff_prefix

theorem mustEndWith_asserts {affix : String} (h : mustEndWith (.str affix) = .ok s) :
    s.Asserts fun v => ∃ text, v = .str text ∧ affix.toList <:+ text.toList := by
  obtain ⟨shown, _, h⟩ := bind_eq_ok h
  cases h
  refine ⟨_, _, _, rfl, textCheck_settles (fun text holds hholds => ?_) _⟩
  cases hholds
  exact List.isSuffixOf_iff_suffix

theorem mustSatisfy_asserts {description : Value} {predicate : Predicate}
    (h : mustSatisfy description predicate = .ok s) :
    s.Asserts fun v => predicate v = .ok true := by
  obtain ⟨shown, _, h⟩ := bind_eq_ok h
  cases h
  refine ⟨_, _, _, rfl, fun v => ?_⟩
  dsimp only
  split
  · next hholds => exact settles_none hholds
  · next hholds => exact settles_problem (by simp [hholds])
  · next hraised => exact settles_some (by simp [hraised])

/-- What is run depends on the pattern only by what it is ready for. -/
theorem mustMatch_eq_ok {pattern : Value} (h : mustMatch pattern = .ok s) :
    ∃ readiness shown, patternOf pattern = .ok readiness
      ∧ s = ⟨"must_match_regex /" ++ shown ++ "/", fun candidates => match readiness with
        | .broken problem => .ok ⟨false, "invalid regular expression: " ++ problem, candidates⟩
        | .ready compiled =>
          checkEvery (textCheck (matchesText compiled) ("does not match /" ++ shown ++ "/"))
            "matched" candidates⟩ := by
  obtain ⟨readiness, hready, h⟩ := bind_eq_ok h
  dsimp only at h
  split at h
  · cases h
    exact ⟨_, _, hready, rfl⟩
  · obtain ⟨shown, _, h⟩ := bind_eq_ok h
    cases h
    exact ⟨_, _, hready, rfl⟩

/-- A pattern that is not broken is put to every text. -/
theorem mustMatch_asserts {pattern : Value} {compiled : Pattern.Compiled}
    (hready : patternOf pattern = .ok (.ready compiled)) (h : mustMatch pattern = .ok s) :
    s.Asserts fun v => ∃ text, v = .str text ∧ compiled.matchesWhole text = true := by
  obtain ⟨readiness, shown, hpattern, rfl⟩ := mustMatch_eq_ok h
  cases hready.symm.trans hpattern
  refine ⟨_, _, _, rfl, textCheck_settles (fun text holds hholds => ?_) _⟩
  unfold matchesText at hholds
  split at hholds
  · cases hholds
    exact Iff.rfl
  · cases hholds

/-- A broken pattern fails whatever the candidates are, and leaves them. -/
theorem mustMatch_broken {pattern : Value} {problem : String}
    (hbroken : patternOf pattern = .ok (.broken problem)) (h : mustMatch pattern = .ok s)
    (vs : List Value) :
    s.run vs = .ok ⟨false, "invalid regular expression: " ++ problem, vs⟩ := by
  obtain ⟨readiness, shown, hpattern, rfl⟩ := mustMatch_eq_ok h
  cases hbroken.symm.trans hpattern
  rfl

end Step

/-! ### Cardinality -/

/-- The number of candidates is in the relation to the bound. -/
def Relation.Admits (size : Nat) (n : Int) : Relation → Prop
  | .exactly => (size : Int) = n
  | .atLeast => n ≤ size
  | .atMost => (size : Int) ≤ n

theorem Relation.holds_int (relation : Relation) (size : Nat) (n : Int) :
    ∃ holds, relation.holds size (.int n) = .ok holds
      ∧ (holds = true ↔ relation.Admits size n) := by
  cases relation with
  | exactly => exact ⟨_, rfl, by simp [Admits, Value.compareNumbers?]⟩
  | atLeast =>
    refine ⟨_, rfl, ?_⟩
    simp only [Value.compareNumbers?, Bool.or_eq_true, beq_iff_eq, Option.some.injEq,
      Int.compare_eq_eq, Int.compare_eq_gt, Admits]
    omega
  | atMost =>
    refine ⟨_, rfl, ?_⟩
    simp only [Value.compareNumbers?, Bool.or_eq_true, beq_iff_eq, Option.some.injEq,
      Int.compare_eq_eq, Int.compare_eq_lt, Admits]
    omega

theorem Step.count_runs {relation : Relation} {n : Int} {s : Step}
    (h : count relation (.int n) = .ok s) (vs : List Value) :
    ∃ ran, s.run vs = .ok ran ∧ ran.candidates = vs
      ∧ (ran.passed = true ↔ relation.Admits vs.length n) := by
  obtain ⟨shown, _, h⟩ := bind_eq_ok h
  cases h
  obtain ⟨holds, hholds, hadmits⟩ := relation.holds_int vs.length n
  simp only [hholds, bind, Except.bind, pure, Except.pure]
  cases holds with
  | true => exact ⟨_, rfl, rfl, hadmits⟩
  | false => exact ⟨_, rfl, rfl, hadmits⟩

/-! ### Every operation -/

namespace Operation

variable {o : Operation} {root : Value} {limit : Int} {s : Step} {vs : List Value} {ran : Ran}

/-- **An operation that judges each candidate asserts what it asks for.** -/
theorem Judges.asserts (h : o.Judges) (hs : o.step root limit = .ok s) :
    s.Asserts (o.Asks root) := by
  cases o with
  | isKind kind =>
    cases hs
    exact Step.isKind_asserts kind
  | isOneOfKinds kinds =>
    cases hs
    exact Step.isOneOfKinds_asserts kinds
  | isEmpty =>
    cases hs
    exact Step.isEmpty_asserts
  | isNotEmpty =>
    cases hs
    exact Step.isNotEmpty_asserts
  | hasSize n =>
    cases n with
    | int n => exact Step.hasSize_asserts hs
    | _ => exact h.elim
  | hasElement element => exact Step.hasElement_asserts hs
  | mustBe expected => exact (Step.mustBe_affirms hs).asserts
  | mustNotBe unexpected => exact (Step.mustNotBe_affirms hs).asserts
  | mustContain path expected =>
    cases path with
    | str path => exact (Step.mustContain_affirms hs).asserts
    | _ => exact h.elim
  | mustNotContain path unexpected =>
    cases path with
    | str path => exact (Step.mustNotContain_affirms hs).asserts
    | _ => exact h.elim
  | mustBeginWith affix =>
    cases affix with
    | str affix => exact Step.mustBeginWith_asserts hs
    | _ => exact h.elim
  | mustEndWith affix =>
    cases affix with
    | str affix => exact Step.mustEndWith_asserts hs
    | _ => exact h.elim
  | mustSatisfy description predicate => exact Step.mustSatisfy_asserts hs
  | mustMatch pattern =>
    obtain ⟨compiled, hready⟩ := h
    obtain ⟨description, okMessage, check, rfl, hcheck⟩ := Step.mustMatch_asserts hready hs
    refine ⟨_, _, _, rfl, fun v => (hcheck v).congr ?_⟩
    simp [Asks, hready]
  | _ => exact h.elim

end Operation

end Attest

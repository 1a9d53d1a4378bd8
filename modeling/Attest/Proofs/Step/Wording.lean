import Attest.Proofs.Step.Judgement
import Attest.Proofs.Value.Excerpt

/-!
# Which values diagnostics show

Eleven operations show values: those they were given, in their description and in what they say of
a candidate, and the candidate itself or what a path leads to in it. A text with values in it is
here a phrase, whose pieces are words and values. A phrase gets its text from a limit, to which all
its values are cut, so it can be asked which limit a text was made with.

Five of the operations take the limit of the chain. The other six always use the one that holds
where none is set. Their texts are those that the limit of the chain would give only if it is this
one, or no value is cut by either.

## Main definitions

* `Phrase`, `Phrase.text` — words and values, and their text for a limit
* `Operation.Titled` — the phrase that describes an operation
* `Operation.Complains` — the phrases that an operation can say of a candidate
* `Operation.Says` — the messages of a run
* `Operation.limitFor` — the limit that an operation cuts values to

## Main results

* `Phrase.text_eq_iff` — when two limits give the same text
* `Operation.wording` — the description and all messages of an operation
-/

namespace Attest

open Value

/-! ### Phrases -/

/-- A piece of a diagnostic. -/
inductive Piece where
  | words (text : String)
  /-- A value of which an excerpt is shown. -/
  | value (v : Value)

/-- A diagnostic before it has a text. -/
abbrev Phrase := List Piece

/-- The text of a piece, values cut to a limit. -/
def Piece.text (limit : Int) : Piece → Except Fault String
  | .words text => .ok text
  | .value v => v.excerpt limit

namespace Phrase

/-- The text of a phrase, values cut to a limit. -/
def text (limit : Int) : Phrase → Except Fault String
  | [] => .ok ""
  | piece :: rest => do
    let first ← piece.text limit
    return first ++ (← text limit rest)

/-- The values that a phrase shows. -/
def values (p : Phrase) : List Value :=
  p.filterMap fun
    | .words _ => none
    | .value v => some v

variable {m n limit : Int} {p : Phrase} {s t : String} {v : Value}

theorem text_words (words : String) (h : text limit p = .ok s) :
    text limit (.words words :: p) = .ok (words ++ s) := by
  simp only [text, Piece.text, h]
  rfl

theorem text_value (hv : v.excerpt limit = .ok s) (h : text limit p = .ok t) :
    text limit (.value v :: p) = .ok (s ++ t) := by
  simp only [text, Piece.text, hv, h]
  rfl

theorem text_words_last (words : String) : text limit [.words words] = .ok words := by
  rw [text_words words (s := "") rfl, String.append_empty]

theorem text_value_last (hv : v.excerpt limit = .ok s) : text limit [.value v] = .ok s := by
  rw [text_value hv (t := "") rfl, String.append_empty]

theorem text_cons {piece : Piece} (h : text limit (piece :: p) = .ok s) :
    ∃ first rest, piece.text limit = .ok first ∧ text limit p = .ok rest ∧ s = first ++ rest := by
  obtain ⟨first, hfirst, h⟩ := bind_eq_ok h
  obtain ⟨rest, hrest, h⟩ := bind_eq_ok h
  exact ⟨first, rest, hfirst, hrest, (Except.ok.inj h).symm⟩

/-- Whether a phrase has a text does not depend on the limit. -/
theorem exists_text (h : text m p = .ok s) (n : Int) : ∃ t, text n p = .ok t := by
  induction p generalizing s with
  | nil => exact ⟨"", rfl⟩
  | cons piece p ih =>
    obtain ⟨first, rest, hfirst, hrest, -⟩ := text_cons h
    obtain ⟨t, ht⟩ := ih hrest
    cases piece with
    | words text => exact ⟨_, text_words text ht⟩
    | value v =>
      obtain ⟨whole, hwhole, -⟩ := excerpt_eq_ok hfirst
      exact ⟨_, text_value (excerpt_of_rendered hwhole n) ht⟩

theorem append_inj {a b c d : String} (h : a ++ b = c ++ d) (hl : a.length = c.length) :
    a = c ∧ b = d := by
  have hlists : a.toList ++ b.toList = c.toList ++ d.toList := by
    rw [← String.toList_append, h, String.toList_append]
  have hlengths : a.toList.length = c.toList.length := by
    rw [String.length_toList, String.length_toList, hl]
  obtain ⟨hac, hbd⟩ := List.append_inj hlists hlengths
  exact ⟨String.toList_inj.mp hac, String.toList_inj.mp hbd⟩

/-- A greater limit never gives a shorter text, and the same one only if it cuts nothing that the
smaller one does not cut. -/
theorem text_of_le (hm : 3 ≤ m) (hle : m ≤ n) (hs : text m p = .ok s) (ht : text n p = .ok t) :
    s.length ≤ t.length ∧ (s = t ↔ m = n ∨ ∀ v ∈ values p, v.Fits (min m n)) := by
  have hn : 3 ≤ n := Int.le_trans hm hle
  induction p generalizing s t with
  | nil =>
    cases hs
    cases ht
    exact ⟨Nat.le_refl _, by simp [values]⟩
  | cons piece p ih =>
    obtain ⟨first, rest, hfirst, hrest, rfl⟩ := text_cons hs
    obtain ⟨first', rest', hfirst', hrest', rfl⟩ := text_cons ht
    obtain ⟨hlength, hiff⟩ := ih hrest hrest'
    rw [String.length_append, String.length_append]
    cases piece with
    | words text =>
      cases hfirst
      cases hfirst'
      exact ⟨Nat.add_le_add_left hlength _, (String.append_right_inj _).trans hiff⟩
    | value v =>
      obtain ⟨whole, hwhole, rfl⟩ := excerpt_eq_ok hfirst
      cases (excerpt_of_rendered hwhole n).symm.trans hfirst'
      have hcut := cutText_eq_iff (s := whole) hm hn
      have hm' := length_cutText hm whole
      have hn' := length_cutText hn whole
      refine ⟨by omega, ?_⟩
      have hvalues : values (.value v :: p) = v :: values p := rfl
      rw [hvalues, List.forall_mem_cons, fits_iff hwhole]
      constructor
      · intro he
        have hlengths := congrArg String.length he
        rw [String.length_append, String.length_append] at hlengths
        obtain ⟨hfirst, hrest⟩ := append_inj he (by omega)
        rcases hcut.mp hfirst with hmn | hfits
        · exact .inl hmn
        · exact (hiff.mp hrest).imp_right fun hall => ⟨hfits, hall⟩
      · intro he
        rw [hcut.mpr (he.imp_right And.left), hiff.mpr (he.imp_right And.right)]

/-- **Two limits give the same text** iff they are equal or cut nothing. -/
theorem text_eq_iff (hm : 3 ≤ m) (hn : 3 ≤ n) (h : text m p = .ok s) :
    text n p = .ok s ↔ m = n ∨ ∀ v ∈ values p, v.Fits (min m n) := by
  obtain ⟨t, ht⟩ := exists_text h n
  rw [ht, Except.ok.injEq]
  rcases Int.le_total m n with hle | hle
  · rw [eq_comm, (text_of_le hm hle h ht).2]
  · rw [(text_of_le hn hle ht h).2, eq_comm, Int.min_comm]

end Phrase

/-! ### What operations say -/

/-- The text of a pattern in diagnostics. -/
def patternSource : Value → Except Fault String
  | .pattern source _ => .ok source
  | v => v.label

namespace Operation

/-- The operations that show values. -/
def Exhibits : Operation → Prop
  | .containing .. | .matching _ | .hasElement _ | .mustBe _ | .mustNotBe _ => True
  | .mustContain .. | .mustNotContain .. => True
  | .mustBeginWith _ | .mustEndWith _ | .mustMatch _ | .mustSatisfy .. => True
  | _ => False

/-- The operations that cut the values they show to the limit of the chain. -/
def Heeds : Operation → Prop
  | .hasElement _ | .mustBe _ | .mustNotBe _ | .mustContain .. | .mustNotContain .. => True
  | _ => False

instance : DecidablePred Heeds := fun o => by
  cases o <;> unfold Heeds <;> infer_instance

/-- The operations that put a candidate to a test of texts. -/
def TestsText : Operation → Prop
  | .mustBeginWith _ | .mustEndWith _ | .mustMatch _ => True
  | _ => False

/-- The operations that keep some of the candidates. -/
def Filters : Operation → Prop
  | .containing .. | .matching _ => True
  | _ => False

/-- The limit that an operation cuts values to, on a chain with a limit. -/
def limitFor (limit : Int) (o : Operation) : Int := if o.Heeds then limit else defaultLimit

/-- The phrase that describes an operation. -/
inductive Titled : Operation → Phrase → Prop where
  | containing {key v : Value} {shown : String} : key.label = .ok shown →
      Titled (.containing key v) [.words ("containing " ++ shown ++ "="), .value v]
  | matching {criteria : Entries} :
      Titled (.matching criteria) [.words "matching ", .value (.dict criteria)]
  | hasElement {v : Value} : Titled (.hasElement v) [.words "has_element ", .value v]
  | mustBe {v : Value} : Titled (.mustBe v) [.words "must_be ", .value v]
  | mustNotBe {v : Value} : Titled (.mustNotBe v) [.words "must_not_be ", .value v]
  | mustContain {path : Value} {shown : String} : path.label = .ok shown →
      Titled (.mustContain path none) [.words ("must_contain " ++ shown)]
  | mustContainValue {path v : Value} {shown : String} : path.label = .ok shown →
      Titled (.mustContain path (some v)) [.words ("must_contain " ++ shown ++ "="), .value v]
  | mustNotContain {path : Value} {shown : String} : path.label = .ok shown →
      Titled (.mustNotContain path none) [.words ("must_not_contain " ++ shown)]
  | mustNotContainValue {path v : Value} {shown : String} : path.label = .ok shown →
      Titled (.mustNotContain path (some v))
        [.words ("must_not_contain " ++ shown ++ "="), .value v]
  | mustBeginWith {v : Value} : Titled (.mustBeginWith v) [.words "must_begin_with ", .value v]
  | mustEndWith {v : Value} : Titled (.mustEndWith v) [.words "must_end_with ", .value v]
  | mustMatch {pattern : Value} {shown : String} : patternSource pattern = .ok shown →
      Titled (.mustMatch pattern) [.words ("must_match_regex /" ++ shown ++ "/")]
  | mustSatisfy {description : Value} {predicate : Predicate} {shown : String} :
      description.label = .ok shown →
        Titled (.mustSatisfy description predicate) [.words ("must_satisfy " ++ shown)]

/-- The phrases that an operation can say of a candidate, for the root of a document. -/
inductive Complains (root : Value) : Operation → Value → Phrase → Prop where
  | noElement {e : Value} {node : NodeId} {form : ArrayForm} {items : List Value} :
      Complains root (.hasElement e) (.array node form items)
        [.words "array does not contain ", .value e]
  | noText {e : Value} {text : String} : (∀ part, e ≠ .str part) →
      Complains root (.hasElement e) (.str text)
        [.words "cannot look for non-string ", .value e, .words " in a string"]
  | noPart {part text : String} :
      Complains root (.hasElement (.str part)) (.str text)
        [.value (.str text), .words " does not contain ", .value (.str part)]
  | noContainer {e c : Value} {kind : Kind} : c.kind = .ok kind →
      Complains root (.hasElement e) c [.words ("expected array or string, got " ++ kind.name)]
  | unequal {v c : Value} :
      Complains root (.mustBe v) c [.words "expected ", .value v, .words ", got ", .value c]
  | equal {v c : Value} :
      Complains root (.mustNotBe v) c [.words "expected anything but ", .value v]
  | nowhere {path c : Value} {expected : Option Value} {shown : String} : path.label = .ok shown →
      Complains root (.mustContain path expected) c
        [.words ("path " ++ shown ++ " not found")]
  | otherThere {path v c actual : Value} {shown : String} : path.label = .ok shown →
      reach root path c = .ok (some actual) →
        Complains root (.mustContain path (some v)) c
          [.words "expected ", .value v, .words (" at " ++ shown ++ ", got "), .value actual]
  | somewhere {path c : Value} {shown : String} : path.label = .ok shown →
      Complains root (.mustNotContain path none) c [.words ("path " ++ shown ++ " exists")]
  | sameThere {path v c : Value} {shown : String} : path.label = .ok shown →
      Complains root (.mustNotContain path (some v)) c
        [.words "found ", .value v, .words (" at " ++ shown)]
  | otherStart {v : Value} {text : String} :
      Complains root (.mustBeginWith v) (.str text)
        [.value (.str text), .words " does not begin with ", .value v]
  | otherEnd {v : Value} {text : String} :
      Complains root (.mustEndWith v) (.str text)
        [.value (.str text), .words " does not end with ", .value v]
  | noMatch {pattern : Value} {shown text : String} : patternSource pattern = .ok shown →
      Complains root (.mustMatch pattern) (.str text)
        [.value (.str text), .words (" does not match /" ++ shown ++ "/")]
  | notString {o : Operation} {c : Value} {kind : Kind} : o.TestsText → c.kind = .ok kind →
      Complains root o c [.words ("expected string, got " ++ kind.name)]
  | unsatisfied {description c : Value} {predicate : Predicate} {shown : String} :
      description.label = .ok shown →
        Complains root (.mustSatisfy description predicate) c
          [.value c, .words (" does not satisfy " ++ shown)]
  | raised {description c : Value} {predicate : Predicate} {complaint : Complaint} :
      predicate c = .error complaint →
        Complains root (.mustSatisfy description predicate) c
          [.words ("predicate raised " ++ complaint.label ++ ": " ++ complaint.text)]

/-- What an operation says where every candidate is as it should be. -/
def praise : Operation → String
  | .hasElement _ => "element present"
  | .mustBe _ => "equal"
  | .mustNotBe _ => "not equal"
  | .mustContain .. => "contained"
  | .mustNotContain .. => "not contained"
  | .mustBeginWith _ => "prefix ok"
  | .mustEndWith _ => "suffix ok"
  | .mustSatisfy .. => "satisfied"
  | .mustMatch _ => "matched"
  | _ => ""

/-- The messages of an operation that was run on candidates: words without values, or what it says
of candidates, with the position of each. -/
inductive Says (root : Value) (limit : Int) (vs : List Value) : Operation → String → Prop where
  | kept {o : Operation} (n : Nat) : o.Filters → Says root limit vs o (keptMessage n vs.length)
  | praise {o : Operation} : ¬ o.Filters → Says root limit vs o o.praise
  | none {o : Operation} : vs = [] → Says root limit vs o emptyMessage
  | broken {pattern : Value} {problem : String} : patternOf pattern = .ok (.broken problem) →
      Says root limit vs (.mustMatch pattern) ("invalid regular expression: " ++ problem)
  | problems {o : Operation} (problems : List (Nat × String)) :
      (∀ p ∈ problems, ∃ c phrase, vs[p.1]? = some c ∧ o.Complains root c phrase ∧
        Phrase.text limit phrase = .ok p.2) →
        Says root limit vs o ("; ".intercalate (problems.map positioned))

/-- The description of a step, and its messages, are those of an operation, with values cut to a
limit. -/
structure Wording (root : Value) (limit : Int) (o : Operation) (s : Step) : Prop where
  title : ∃ phrase, o.Titled phrase ∧ Phrase.text limit phrase = .ok s.description
  message : ∀ vs ran, s.run vs = .ok ran → o.Says root limit vs ran.message

variable {root : Value} {limit : Int} {o : Operation} {s : Step}

/-! ### Assertions -/

/-- The operation can say what a check finds wrong with a candidate. -/
def Voices (root : Value) (limit : Int) (o : Operation) (check : Check) : Prop :=
  ∀ c text, check c = .ok (some text) →
    ∃ phrase, o.Complains root c phrase ∧ Phrase.text limit phrase = .ok text

theorem Voices.speaks {check : Check} (h : o.Voices root limit check) (ho : ¬ o.Filters)
    {vs : List Value} {ran : Ran} (hran : checkEvery check o.praise vs = .ok ran) :
    o.Says root limit vs ran.message := by
  unfold checkEvery at hran
  split at hran
  · next hnil =>
    cases hran
    exact .none (List.isEmpty_iff.mp hnil)
  · obtain ⟨texts, htexts, hran⟩ := bind_eq_ok hran
    obtain ⟨-, problems, rfl, -, hproblems⟩ := problemsFrom_eq_ok htexts
    cases Except.ok.inj hran
    split
    · exact .praise ho
    · refine .problems problems fun p hp => ?_
      obtain ⟨i, c, hi, hc, hcheck⟩ := (hproblems p).mp hp
      obtain ⟨phrase, hphrase, htext⟩ := h c p.2 hcheck
      exact ⟨c, phrase, by rwa [hi, Nat.zero_add], hphrase, htext⟩

/-- An assertion with a voiced check, and with a fitting description. -/
theorem Voices.wording {check : Check} (h : o.Voices root limit check) (ho : ¬ o.Filters)
    {description : String} {phrase : Phrase} (htitle : o.Titled phrase)
    (htext : Phrase.text limit phrase = .ok description) :
    o.Wording root limit (.assertion description o.praise check) where
  title := ⟨phrase, htitle, htext⟩
  message _ _ hran := h.speaks ho hran

theorem hasElement_wording {e : Value} (hs : Step.hasElement limit e = .ok s) :
    (hasElement e).Wording root limit s := by
  obtain ⟨shown, hshown, hs⟩ := bind_eq_ok hs
  cases hs
  refine Voices.wording (o := hasElement e) (fun c text hc => ?_) id .hasElement
    (Phrase.text_words _ (Phrase.text_value_last hshown))
  cases c with
  | array node form items =>
    obtain ⟨found, -, hc⟩ := bind_eq_ok hc
    cases found
    · cases hc
      exact ⟨_, .noElement, Phrase.text_words _ (Phrase.text_value_last hshown)⟩
    · cases hc
  | str given =>
    cases e with
    | str part =>
      dsimp only at hc
      split at hc
      · cases hc
      · obtain ⟨own, hown, hc⟩ := bind_eq_ok hc
        cases hc
        refine ⟨_, .noPart, ?_⟩
        rw [Phrase.text_value hown (Phrase.text_words _ (Phrase.text_value_last hshown)),
          String.append_assoc]
    | _ =>
      cases hc
      refine ⟨_, .noText nofun, ?_⟩
      rw [Phrase.text_words _ (Phrase.text_value hshown (Phrase.text_words_last _))]
      rfl
  | _ =>
    obtain ⟨kind, hkind, hc⟩ := bind_eq_ok hc
    cases hc
    exact ⟨_, .noContainer hkind, Phrase.text_words_last _⟩

theorem mustBe_wording {v : Value} (hs : Step.mustBe limit v = .ok s) :
    (mustBe v).Wording root limit s := by
  obtain ⟨shown, hshown, hs⟩ := bind_eq_ok hs
  cases hs
  refine Voices.wording (o := mustBe v) (fun c text hc => ?_) id .mustBe
    (Phrase.text_words _ (Phrase.text_value_last hshown))
  obtain ⟨same, -, hc⟩ := bind_eq_ok hc
  cases same
  · obtain ⟨own, hown, hc⟩ := bind_eq_ok hc
    cases hc
    refine ⟨_, .unequal, ?_⟩
    rw [Phrase.text_words _ (Phrase.text_value hshown
      (Phrase.text_words _ (Phrase.text_value_last hown))), String.append_assoc,
      String.append_assoc]
  · cases hc

theorem mustNotBe_wording {v : Value} (hs : Step.mustNotBe limit v = .ok s) :
    (mustNotBe v).Wording root limit s := by
  obtain ⟨shown, hshown, hs⟩ := bind_eq_ok hs
  cases hs
  refine Voices.wording (o := mustNotBe v) (fun c text hc => ?_) id .mustNotBe
    (Phrase.text_words _ (Phrase.text_value_last hshown))
  obtain ⟨same, -, hc⟩ := bind_eq_ok hc
  cases same
  · cases hc
  · cases hc
    exact ⟨_, .equal, Phrase.text_words _ (Phrase.text_value_last hshown)⟩

theorem mustContain_wording {path : Value} {expected : Option Value}
    (hs : Step.mustContain limit root path expected = .ok s) :
    (mustContain path expected).Wording root limit s := by
  obtain ⟨shown, hshown, hs⟩ := bind_eq_ok hs
  obtain ⟨title, htitle, hs⟩ := bind_eq_ok hs
  cases hs
  obtain ⟨_, hlabel, htitle⟩ := bind_eq_ok htitle
  cases hshown.symm.trans hlabel
  cases expected with
  | none =>
    cases htitle
    refine Voices.wording (o := mustContain path none) (fun c text hc => ?_) id
      (.mustContain hshown) (Phrase.text_words_last _)
    obtain ⟨found, hfound, hc⟩ := bind_eq_ok hc
    cases found with
    | none =>
      cases hc
      exact ⟨_, .nowhere hshown, Phrase.text_words_last _⟩
    | some actual => cases hc
  | some v =>
    obtain ⟨own, hown, htitle⟩ := bind_eq_ok htitle
    cases htitle
    refine Voices.wording (o := mustContain path (some v)) (fun c text hc => ?_) id
      (.mustContainValue hshown) ?_
    · obtain ⟨found, hfound, hc⟩ := bind_eq_ok hc
      cases found with
      | none =>
        cases hc
        exact ⟨_, .nowhere hshown, Phrase.text_words_last _⟩
      | some actual =>
        obtain ⟨same, -, hc⟩ := bind_eq_ok hc
        cases same
        · obtain ⟨wanted, hwanted, hc⟩ := bind_eq_ok hc
          obtain ⟨got, hgot, hc⟩ := bind_eq_ok hc
          cases hc
          refine ⟨_, .otherThere hshown hfound, ?_⟩
          rw [Phrase.text_words _ (Phrase.text_value hwanted
            (Phrase.text_words _ (Phrase.text_value_last hgot)))]
          simp only [String.append_assoc]
        · cases hc
    · rw [Phrase.text_words _ (Phrase.text_value_last hown)]
      simp only [String.append_assoc]

theorem mustNotContain_wording {path : Value} {unexpected : Option Value}
    (hs : Step.mustNotContain limit root path unexpected = .ok s) :
    (mustNotContain path unexpected).Wording root limit s := by
  obtain ⟨shown, hshown, hs⟩ := bind_eq_ok hs
  obtain ⟨title, htitle, hs⟩ := bind_eq_ok hs
  cases hs
  obtain ⟨_, hlabel, htitle⟩ := bind_eq_ok htitle
  cases hshown.symm.trans hlabel
  cases unexpected with
  | none =>
    cases htitle
    refine Voices.wording (o := mustNotContain path none) (fun c text hc => ?_) id
      (.mustNotContain hshown) (Phrase.text_words_last _)
    obtain ⟨found, -, hc⟩ := bind_eq_ok hc
    cases found with
    | none => cases hc
    | some actual =>
      cases hc
      exact ⟨_, .somewhere hshown, Phrase.text_words_last _⟩
  | some v =>
    obtain ⟨own, hown, htitle⟩ := bind_eq_ok htitle
    cases htitle
    refine Voices.wording (o := mustNotContain path (some v)) (fun c text hc => ?_) id
      (.mustNotContainValue hshown) ?_
    · obtain ⟨found, -, hc⟩ := bind_eq_ok hc
      cases found with
      | none => cases hc
      | some actual =>
        obtain ⟨same, -, hc⟩ := bind_eq_ok hc
        cases same
        · cases hc
        · obtain ⟨wanted, hwanted, hc⟩ := bind_eq_ok hc
          cases hc
          refine ⟨_, .sameThere hshown, ?_⟩
          rw [Phrase.text_words _ (Phrase.text_value hwanted (Phrase.text_words_last _))]
          simp only [String.append_assoc]
    · rw [Phrase.text_words _ (Phrase.text_value_last hown)]
      simp only [String.append_assoc]

/-! ### Tests of texts, and predicates -/

/-- A test of texts shows the text that fails it, and what comes after it. -/
theorem voices_textCheck {test : String → Except Fault Bool} {problem : String} {rest : Phrase}
    (ho : o.TestsText) (hrest : Phrase.text defaultLimit rest = .ok (" " ++ problem))
    (hphrase : ∀ text, o.Complains root (.str text) (.value (.str text) :: rest)) :
    o.Voices root defaultLimit (textCheck test problem) := by
  intro c text hc
  cases c with
  | str given =>
    obtain ⟨holds, -, hc⟩ := bind_eq_ok hc
    cases holds
    · obtain ⟨own, hown, hc⟩ := bind_eq_ok hc
      cases hc
      refine ⟨_, hphrase given, ?_⟩
      rw [Phrase.text_value hown hrest, String.append_assoc]
    · cases hc
  | _ =>
    obtain ⟨kind, hkind, hc⟩ := bind_eq_ok hc
    cases hc
    exact ⟨_, .notString ho hkind, Phrase.text_words_last _⟩

theorem mustBeginWith_wording {v : Value} (hs : Step.mustBeginWith v = .ok s) :
    (mustBeginWith v).Wording root defaultLimit s := by
  obtain ⟨shown, hshown, hs⟩ := bind_eq_ok hs
  cases hs
  have hrest := Phrase.text_words " does not begin with " (Phrase.text_value_last hshown)
  refine Voices.wording (o := mustBeginWith v) (voices_textCheck trivial ?_ fun _ => .otherStart) id
    .mustBeginWith (Phrase.text_words _ (Phrase.text_value_last hshown))
  rw [hrest, ← String.append_assoc]
  rfl

theorem mustEndWith_wording {v : Value} (hs : Step.mustEndWith v = .ok s) :
    (mustEndWith v).Wording root defaultLimit s := by
  obtain ⟨shown, hshown, hs⟩ := bind_eq_ok hs
  cases hs
  have hrest := Phrase.text_words " does not end with " (Phrase.text_value_last hshown)
  refine Voices.wording (o := mustEndWith v) (voices_textCheck trivial ?_ fun _ => .otherEnd) id
    .mustEndWith (Phrase.text_words _ (Phrase.text_value_last hshown))
  rw [hrest, ← String.append_assoc]
  rfl

theorem mustMatch_eq (pattern : Value) : Step.mustMatch pattern = do
    let readiness ← patternOf pattern
    let shown ← patternSource pattern
    return ⟨"must_match_regex /" ++ shown ++ "/", fun candidates => match readiness with
      | .broken problem => .ok ⟨false, "invalid regular expression: " ++ problem, candidates⟩
      | .ready compiled =>
        checkEvery (textCheck (matchesText compiled) ("does not match /" ++ shown ++ "/"))
          "matched" candidates⟩ := by
  cases pattern <;> rfl

theorem mustMatch_wording {pattern : Value} (hs : Step.mustMatch pattern = .ok s) :
    (mustMatch pattern).Wording root defaultLimit s := by
  rw [mustMatch_eq] at hs
  obtain ⟨readiness, hready, hs⟩ := bind_eq_ok hs
  obtain ⟨shown, hshown, hs⟩ := bind_eq_ok hs
  cases hs
  refine ⟨⟨_, .mustMatch hshown, Phrase.text_words_last _⟩, fun vs ran hran => ?_⟩
  cases readiness with
  | broken problem =>
    cases hran
    exact .broken hready
  | ready compiled =>
    refine (voices_textCheck (o := mustMatch pattern) trivial ?_ fun _ => .noMatch hshown).speaks
      id hran
    rw [Phrase.text_words_last]
    simp only [← String.append_assoc]
    rfl

theorem mustSatisfy_wording {description : Value} {predicate : Predicate}
    (hs : Step.mustSatisfy description predicate = .ok s) :
    (mustSatisfy description predicate).Wording root defaultLimit s := by
  obtain ⟨shown, hshown, hs⟩ := bind_eq_ok hs
  cases hs
  refine Voices.wording (o := mustSatisfy description predicate) (fun c text hc => ?_) id
    (.mustSatisfy hshown) (Phrase.text_words_last _)
  split at hc
  · cases hc
  · obtain ⟨own, hown, hc⟩ := bind_eq_ok hc
    cases hc
    refine ⟨_, .unsatisfied hshown, ?_⟩
    rw [Phrase.text_value hown (Phrase.text_words_last _), String.append_assoc]
  · next hraised =>
    cases hc
    exact ⟨_, .raised hraised, Phrase.text_words_last _⟩

/-! ### Filters -/

theorem containing_wording {key v : Value} (hs : Step.containing key v = .ok s) :
    (containing key v).Wording root defaultLimit s := by
  obtain ⟨shown, hshown, hs⟩ := bind_eq_ok hs
  obtain ⟨own, hown, hs⟩ := bind_eq_ok hs
  cases hs
  refine ⟨⟨_, .containing hshown, Phrase.text_words _ (Phrase.text_value_last hown)⟩, ?_⟩
  intro vs ran hran
  obtain ⟨kept, -, hran⟩ := bind_eq_ok hran
  cases hran
  exact .kept _ trivial

theorem matching_wording {criteria : Entries} (hs : Step.matching criteria = .ok s) :
    (matching criteria).Wording root defaultLimit s := by
  obtain ⟨shown, hshown, hs⟩ := bind_eq_ok hs
  cases hs
  refine ⟨⟨_, .matching, Phrase.text_words _ (Phrase.text_value_last hshown)⟩, ?_⟩
  intro vs ran hran
  obtain ⟨kept, -, hran⟩ := bind_eq_ok hran
  cases hran
  exact .kept _ trivial

/-- **The description and the messages of every operation that shows values** have the values that
they show cut to one limit: that of the chain, or the one that holds where none is set. -/
theorem wording (ho : o.Exhibits) (hs : o.step root limit = .ok s) :
    o.Wording root (o.limitFor limit) s := by
  cases o with
  | containing => exact containing_wording hs
  | matching => exact matching_wording hs
  | hasElement => exact hasElement_wording hs
  | mustBe => exact mustBe_wording hs
  | mustNotBe => exact mustNotBe_wording hs
  | mustContain => exact mustContain_wording hs
  | mustNotContain => exact mustNotContain_wording hs
  | mustBeginWith => exact mustBeginWith_wording hs
  | mustEndWith => exact mustEndWith_wording hs
  | mustMatch => exact mustMatch_wording hs
  | mustSatisfy => exact mustSatisfy_wording hs
  | atPath | withObjects | select | isKind | isOneOfKinds | isEmpty | isNotEmpty | hasSize
  | count => exact ho.elim

/-! ### Which limit it was -/

/-- An operation that does not heed the limit of the chain gives the text that this would give only
if no value is cut. -/
theorem text_limitFor_iff {phrase : Phrase} {text : String} (hlimit : 3 ≤ limit)
    (h : Phrase.text (o.limitFor limit) phrase = .ok text) :
    Phrase.text limit phrase = .ok text ↔
      o.Heeds ∨ limit = defaultLimit ∨ ∀ v ∈ phrase.values, v.Fits (min defaultLimit limit) := by
  have hdefault : 3 ≤ defaultLimit := by decide
  unfold limitFor at h
  split at h
  · next ho => exact iff_of_true h (.inl ho)
  · next ho =>
    rw [Phrase.text_eq_iff hdefault hlimit h, or_iff_right ho, eq_comm]

/-- A value that such an operation shows is within the limit of the chain only if that is no less
than the one that is used instead, or the whole text is within it. -/
theorem length_limitFor_iff {v : Value} {text : String} (hlimit : 3 ≤ limit)
    (h : v.excerpt (o.limitFor limit) = .ok text) :
    (text.length : Int) ≤ limit ↔ o.Heeds ∨ defaultLimit ≤ limit ∨ v.Fits limit := by
  unfold limitFor at h
  split at h
  · next ho => exact iff_of_true (length_excerpt_le hlimit h) (.inl ho)
  · next ho => rw [length_excerpt_le_iff (by decide) h, or_iff_right ho]

end Operation

end Attest

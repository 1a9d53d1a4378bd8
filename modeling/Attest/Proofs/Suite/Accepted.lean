import Attest.Proofs.Step.Operation
import Attest.Suite.Run

/-!
# Steps that the validator accepts

A step that the validator has nothing to say against can be read, names a call that exists, and
gives this call arguments that it takes. So between the validator and the chain nothing can go
wrong, and what can go wrong with the call is what can go wrong with plain arguments.

## Main definitions

* `Call.Plain` — the calls whose arguments have the form that is asked for
* `Suite.Accepts` — JSON that the validator accepts as a step
* `Call.Accepted` — the calls that such steps stand for

## Main results

* `Suite.Accepts.reads` — an accepted step stands for a plain call
-/

namespace Attest

/-- A call with arguments of the form that is asked for. -/
def Call.Plain (queries : QueryEngine) : Call → Prop
  | .queue operation => operation.Plain queries
  | .openBlock | .nextBranch | .closeBlock | .verify | .finish _ (.int _) => True
  | _ => False

namespace Suite

/-- The call that a step of a check stands for. -/
def callOfStep (queries : QueryEngine) (step : Value) : Except Fault Call := do
  callOf queries (← Draft.readStep step)

/-- JSON that the validator accepts as a step. -/
def Accepts (step : Value) : Prop :=
  step.IsJson ∧ ∃ op path, stepErrors step path = .ok (some op, [])

/-- The invocation can be made, and makes a plain call. -/
def Makes (queries : QueryEngine) (i : Invocation) : Prop :=
  ∃ c, callOf queries i = .ok c ∧ c.Plain queries

variable {queries : QueryEngine} {op : Op}

/-! ### Arguments by form -/

theorem makes_of_nothing (h : op.form = .nothing) : Makes queries { op := op } := by
  cases op with
  | withObjects | isNull | isBool | isNumber | isString | isArray | isObject | isEmpty | isNotEmpty
  | either | orElse | end_ | verify => exact ⟨_, rfl, trivial⟩
  | _ => cases h

theorem makes_of_count (h : op.form = .count) (n : Int) :
    Makes queries { op := op, args := [.int n] } := by
  cases op with
  | hasSize | mustSelected | exactly | atLeast | atMost => exact ⟨_, rfl, trivial⟩
  | _ => cases h

theorem makes_of_text (h : op.form = .text) (s : String) :
    Makes queries { op := op, args := [.str s] } := by
  cases op with
  | at_ | mustBeginWith | mustEndWith | mustMatchRegex => exact ⟨_, rfl, trivial⟩
  | select => exact ⟨_, rfl, rfl⟩
  | _ => cases h

theorem makes_of_anything (h : op.form = .anything) {v : Value} (hv : v.IsJson) :
    Makes queries { op := op, args := [v] } := by
  cases op with
  | hasElement | mustBe | mustNotBe => exact ⟨_, rfl, hv⟩
  | _ => cases h

/-- What names a kind is a text that does. -/
theorem kindOf_of_namesKind {v : Value} (h : namesKind v = .ok true) : Succeeds (kindOf v) := by
  unfold namesKind at h
  cases v with
  | str s =>
    have hs : (Kind.ofName? s).isSome = true := Except.ok.inj h
    obtain ⟨kind, hkind⟩ := Option.isSome_iff_exists.mp hs
    exact ⟨kind, by simp only [kindOf, hkind]⟩
  | _ => split at h <;> cases h

theorem makes_of_kind (h : op.form = .kind) {v : Value} (hv : namesKind v = .ok true) :
    Makes queries { op := op, args := [v] } := by
  obtain ⟨kind, hkind⟩ := kindOf_of_namesKind hv
  cases op with
  | isType =>
    refine ⟨.queue (.isKind kind), ?_, trivial⟩
    show (do return Call.queue (.isKind (← kindOf v)) : Except Fault Call) = _
    rw [hkind]
    rfl
  | _ => cases h

theorem kindsOfAll_of_allNameKinds {items : List Value} (h : allNameKinds items = .ok true) :
    Succeeds (kindsOfAll items) := by
  induction items with
  | nil => exact succeeds_ok _
  | cons v rest ih =>
    rw [allNameKinds] at h
    obtain ⟨named, hnamed, h⟩ := bind_eq_ok h
    cases named with
    | true => exact (succeeds_both_iff _).mpr ⟨kindOf_of_namesKind hnamed, ih h⟩
    | false => cases h

theorem makes_of_kinds (h : op.form = .kinds) {node : NodeId} {items : List Value}
    (hv : allNameKinds items = .ok true) :
    Makes queries { op := op, args := [.array node .list items] } := by
  obtain ⟨kinds, hkinds⟩ := kindsOfAll_of_allNameKinds hv
  cases op with
  | isOneOfTypes =>
    refine ⟨.queue (.isOneOfKinds kinds), ?_, trivial⟩
    show (do return Call.queue (.isOneOfKinds (← kindsOfAll items)) : Except Fault Call) = _
    rw [hkinds]
    rfl
  | _ => cases h

theorem makes_of_criteria (h : op.form = .criteria) {node : NodeId} {e : Value × Value}
    {rest : Entries} (hv : (Value.object node .plain (e :: rest)).IsJson) :
    Makes queries { op := op, args := [.object node .plain (e :: rest)] } := by
  cases op with
  | matching => exact ⟨_, rfl, hv⟩
  | _ => cases h

/-! ### A key or path with a value -/

theorem expectation_isJson {v : Value} (hv : v.IsJson) : ∀ w ∈ expectation v, w.IsJson := by
  unfold expectation
  split
  · rintro _ ⟨⟩
  · rintro _ ⟨⟩
    exact hv

theorem pairErrors_list {first place : String} {required : Bool} {node : NodeId}
    {items : List Value} (h : pairErrors first required (.array node .list items) place = .ok []) :
    (∃ s w, items = [.str s, w]) ∨ required = false ∧ ∃ s, items = [.str s] := by
  match items with
  | [] => cases required <;> cases h
  | [x] =>
    cases required with
    | true => cases h
    | false =>
      cases x with
      | str s => exact .inr ⟨rfl, s, rfl⟩
      | _ => cases h
  | [x, w] =>
    cases x with
    | str s => exact .inl ⟨s, w, rfl⟩
    | _ => cases required <;> cases h
  | _ :: _ :: _ :: _ => simp [pairErrors] at h

theorem makes_of_list (h : op.form = .pair) {place : String} {node : NodeId} {items : List Value}
    (hv : (Value.array node .list items).IsJson)
    (he : argumentErrors op (.array node .list items) place = .ok []) :
    Makes queries { op := op, args := items } := by
  have hitems : Value.PlainItems (fun _ => True) items := hv
  cases op with
  | containing =>
    rcases pairErrors_list he with ⟨s, w, rfl⟩ | ⟨hrequired, _⟩
    · exact ⟨_, rfl, hitems.2.1⟩
    · cases hrequired
  | mustContain | mustNotContain =>
    rcases pairErrors_list he with ⟨s, w, rfl⟩ | ⟨_, s, rfl⟩
    · exact ⟨_, rfl, expectation_isJson hitems.2.1⟩
    · exact ⟨_, rfl, by rintro _ ⟨⟩⟩
  | _ => cases h

theorem makes_of_alone (h : op.form = .pair) {place : String} {v : Value} (hv : v.IsJson)
    (hlist : ∀ node items, v ≠ .array node .list items)
    (hmapping : ∀ node entries, v ≠ .object node .plain entries)
    (he : argumentErrors op v place = .ok []) : Makes queries { op := op, args := [v] } := by
  have htext : op ≠ .containing ∧ ∃ s, v = .str s := by
    cases v with
    | str s => exact ⟨(by rintro rfl; cases he), s, rfl⟩
    | array node form items =>
      cases form with
      | list => exact absurd rfl (hlist node items)
      | tuple => exact hv.elim
    | object node form entries =>
      cases form with
      | plain => exact absurd rfl (hmapping node entries)
      | view => exact hv.elim
    | _ => simp [argumentErrors, h, pairErrors] at he
  obtain ⟨hop, s, rfl⟩ := htext
  cases op with
  | containing => exact absurd rfl hop
  | mustContain | mustNotContain => exact ⟨_, rfl, by rintro _ ⟨⟩⟩
  | _ => cases h

/-! ### Arguments by name -/

/-- Arguments by name, as the entries of a mapping. -/
def entriesOfNamed (named : NamedArguments) : Entries := named.map fun (name, v) => (.str name, v)

variable {named : NamedArguments}

theorem exists_named {p : Int → Prop} {entries : Entries} (h : Value.PlainEntries p entries) :
    ∃ named, entriesOfNamed named = entries := by
  induction entries with
  | nil => exact ⟨[], rfl⟩
  | cons e rest ih =>
    obtain ⟨key, v⟩ := e
    obtain ⟨⟨name, rfl⟩, _, hrest⟩ := h
    obtain ⟨named, rfl⟩ := ih hrest
    exact ⟨(name, v) :: named, rfl⟩

theorem namedArguments_entriesOfNamed (named : NamedArguments) :
    namedArguments (entriesOfNamed named) = .ok named := by
  induction named with
  | nil => rfl
  | cons e rest ih =>
    show (do return e :: (← namedArguments (entriesOfNamed rest)) : Except Fault _) = _
    rw [ih]
    rfl

theorem field?_entriesOfNamed (name : String) (named : NamedArguments) :
    Value.field? name (entriesOfNamed named) = named.lookup name := by
  induction named with
  | nil => rfl
  | cons e rest ih =>
    obtain ⟨key, v⟩ := e
    show (if name == key then some v else Value.field? name (entriesOfNamed rest)) = _
    rw [ih, List.lookup_cons]
    cases name == key <;> rfl

theorem lookup_filter_ne {name other : String} (h : name ≠ other) :
    (named.filter (·.1 ≠ other)).lookup name = named.lookup name := by
  induction named with
  | nil => rfl
  | cons e rest ih =>
    obtain ⟨key, v⟩ := e
    by_cases hkey : key = other
    · have hname : (name == key) = false := beq_eq_false_iff_ne.mpr (hkey ▸ h)
      rw [List.filter_cons_of_neg (by simp [hkey]), ih, List.lookup_cons, hname]
    · rw [List.filter_cons_of_pos (by simp [hkey]), List.lookup_cons, List.lookup_cons, ih]

/-- Two arguments are bound by name if no other names are given. -/
theorem bindTwo_of_named {call first second : String} {default : Option Value} {v w : Value}
    {result : Value → Value → Except Fault Call} (hne : second ≠ first)
    (hnames : ∀ e ∈ named, e.1 = first ∨ e.1 = second) (hfirst : named.lookup first = some v)
    (hsecond : named.lookup second = some w ∨ named.lookup second = none ∧ default = some w) :
    bindTwo call first second default [] named result = result v w := by
  have hlookup : (named.filter (·.1 ≠ first)).lookup second = named.lookup second :=
    lookup_filter_ne hne
  have hrest : (named.filter (·.1 ≠ first)).filter (·.1 ≠ second) = [] := by
    simp only [List.filter_eq_nil_iff, List.mem_filter]
    rintro e ⟨he, hfirst⟩
    rcases hnames e he with heq | heq <;> simp_all
  rcases hsecond with hsecond | ⟨hsecond, rfl⟩
  · simp only [bindTwo, bindEach, hfirst, hlookup, hsecond, hrest]
    rfl
  · have hnone : named.filter (·.1 ≠ first) = [] := by
      simp only [List.filter_eq_nil_iff]
      intro e he
      rcases hnames e he with heq | heq
      · simp [heq]
      · exact absurd hsecond (by simpa [List.lookup_eq_none_iff] using ⟨e.2, heq ▸ he⟩)
    simp only [bindTwo, bindEach, hfirst, hnone]
    rfl

theorem otherKeys_eq_nil {names : List String}
    (h : otherKeys names (entriesOfNamed named) = []) : ∀ e ∈ named, e.1 ∈ names := by
  intro e he
  have hkey : Value.str e.1 ∈ (entriesOfNamed named).map Prod.fst :=
    List.mem_map.mpr ⟨(.str e.1, e.2), List.mem_map.mpr ⟨e, he, rfl⟩, rfl⟩
  simpa using List.filter_eq_nil_iff.mp h _ hkey

theorem pairErrors_mapping {first place : String} {required : Bool} (node : NodeId)
    (h : pairErrors first required (.object node .plain (entriesOfNamed named)) place = .ok []) :
    (∀ e ∈ named, e.1 = first ∨ e.1 = "value") ∧ (∃ s, named.lookup first = some (.str s)) ∧
      (required = true → ∃ w, named.lookup "value" = some w) := by
  simp only [pairErrors] at h
  split at h
  · next hunknown =>
    have hnil := Except.ok.inj h
    simp only [List.nil_append, List.append_eq_nil_iff] at hnil
    obtain ⟨hgiven, habsent⟩ := hnil
    refine ⟨by simpa using otherKeys_eq_nil (List.isEmpty_iff.mp hunknown), ?_, ?_⟩
    · rw [entryOr, field?_entriesOfNamed] at hgiven
      cases hfirst : named.lookup first with
      | none => simp [hfirst] at hgiven
      | some v =>
        rw [hfirst] at hgiven
        cases v with
        | str s => exact ⟨s, rfl⟩
        | _ => cases hgiven
    · rintro rfl
      rw [field?_entriesOfNamed] at habsent
      cases hvalue : named.lookup "value" with
      | none => simp [hvalue] at habsent
      | some w => exact ⟨w, rfl⟩
  · obtain ⟨_, _, h⟩ := bind_eq_ok h
    obtain ⟨_, _, h⟩ := bind_eq_ok h
    simpa using Except.ok.inj h

theorem makes_of_mapping (h : op.form = .pair) {place : String} {node : NodeId}
    (hv : (Value.object node .plain (entriesOfNamed named)).IsJson)
    (he : argumentErrors op (.object node .plain (entriesOfNamed named)) place = .ok []) :
    Makes queries { op := op, named := entriesOfNamed named } := by
  have hentries : Value.PlainEntries (fun _ => True) (entriesOfNamed named) := hv
  have hjson : ∀ {w}, named.lookup "value" = some w → w.IsJson := fun hw =>
    hentries.lookup ((field?_entriesOfNamed "value" named).trans hw)
  -- the value may be left out of an assertion, and the marker stands for it then
  have hsecond : ∃ w, (named.lookup "value" = some w ∨ named.lookup "value" = none ∧
      some Value.missing = some w) ∧ ∀ v ∈ expectation w, v.IsJson := by
    cases hvalue : named.lookup "value" with
    | none => exact ⟨.missing, .inr ⟨rfl, rfl⟩, by rintro _ ⟨⟩⟩
    | some w => exact ⟨w, .inl rfl, expectation_isJson (hjson hvalue)⟩
  cases op with
  | containing =>
    obtain ⟨hnames, ⟨s, hs⟩, hvalue⟩ := pairErrors_mapping node he
    obtain ⟨w, hw⟩ := hvalue rfl
    refine ⟨.queue (.containing (.str s) w), ?_, hjson hw⟩
    simp only [callOf, namedArguments_entriesOfNamed]
    exact bindTwo_of_named (by decide) hnames hs (.inl hw)
  | mustContain =>
    obtain ⟨hnames, ⟨s, hs⟩, _⟩ := pairErrors_mapping node he
    obtain ⟨w, hw, hplain⟩ := hsecond
    refine ⟨.queue (.mustContain (.str s) (expectation w)), ?_, hplain⟩
    simp only [callOf, namedArguments_entriesOfNamed]
    exact bindTwo_of_named (by decide) hnames hs hw
  | mustNotContain =>
    obtain ⟨hnames, ⟨s, hs⟩, _⟩ := pairErrors_mapping node he
    obtain ⟨w, hw, hplain⟩ := hsecond
    refine ⟨.queue (.mustNotContain (.str s) (expectation w)), ?_, hplain⟩
    simp only [callOf, namedArguments_entriesOfNamed]
    exact bindTwo_of_named (by decide) hnames hs hw
  | _ => cases h

/-! ### Steps -/

/-- What an operation with an argument is read as. -/
def invocationOf (op : Op) (v : Value) : Invocation :=
  match op.form, v with
  | .nothing, _ => { op := op }
  | .pair, .array _ .list items => { op := op, args := items }
  | .pair, .object _ .plain entries => { op := op, named := entries }
  | _, v => { op := op, args := [v] }

theorem readStep_mapping {name v : Value} {node : NodeId} (hop : opOf? name = some op) :
    Draft.readStep (.object node .plain [(name, v)]) = .ok (invocationOf op v) := by
  have hnamed : Draft.opNamed name = .ok op := by simp only [Draft.opNamed, hop]
  unfold invocationOf
  simp only [Draft.readStep, Draft.entriesOf, bind, Except.bind, hnamed]
  generalize op.form = form
  cases form with
  | pair =>
    cases v with
    | array node form => cases form <;> rfl
    | object node form => cases form <;> rfl
    | _ => rfl
  | _ => rfl

/-- An operation with an argument that the validator accepts makes a plain call. -/
theorem makes_argument {v : Value} {place : String} (hform : op.form ≠ .nothing) (hv : v.IsJson)
    (he : argumentErrors op v place = .ok []) : Makes queries (invocationOf op v) := by
  unfold invocationOf
  cases h : op.form with
  | nothing => exact absurd h hform
  | count =>
    simp only [argumentErrors, h] at he
    cases v with
    | int n => exact makes_of_count h n
    | _ => cases he
  | text =>
    simp only [argumentErrors, h] at he
    cases v with
    | str s => exact makes_of_text h s
    | _ => cases he
  | kind =>
    simp only [argumentErrors, h] at he
    obtain ⟨named, hnamed, he⟩ := bind_eq_ok he
    cases named with
    | true => exact makes_of_kind h hnamed
    | false => cases he
  | kinds =>
    simp only [argumentErrors, h] at he
    cases v with
    | array node form items =>
      cases form with
      | tuple => exact hv.elim
      | list =>
        cases items with
        | nil => cases he
        | cons x rest =>
          obtain ⟨named, hnamed, he⟩ := bind_eq_ok he
          cases named with
          | true => exact makes_of_kinds h hnamed
          | false => cases he
    | _ => cases he
  | criteria =>
    simp only [argumentErrors, h] at he
    cases v with
    | object node form entries =>
      cases form with
      | view => exact hv.elim
      | plain =>
        cases entries with
        | nil => cases he
        | cons e rest => exact makes_of_criteria h hv
    | _ => cases he
  | pair =>
    cases v with
    | array node form items =>
      cases form with
      | tuple => exact hv.elim
      | list => exact makes_of_list h hv he
    | object node form entries =>
      cases form with
      | view => exact hv.elim
      | plain =>
        obtain ⟨named, rfl⟩ := exists_named (show Value.PlainEntries _ entries from hv)
        exact makes_of_mapping h hv he
    | _ => exact makes_of_alone h hv (by rintro _ _ ⟨⟩) (by rintro _ _ ⟨⟩) he
  | anything => exact makes_of_anything h hv

/-- **A step that the validator accepts stands for a plain call.** -/
theorem Accepts.reads {step : Value} (h : Accepts step) (queries : QueryEngine) :
    ∃ c, callOfStep queries step = .ok c ∧ c.Plain queries := by
  obtain ⟨hjson, op, place, herrors⟩ := h
  have hread : ∃ i, Draft.readStep step = .ok i ∧ Makes queries i := by
    unfold stepErrors at herrors
    split at herrors
    · cases herrors
    · next name argument hentry =>
      split at herrors
      · next op' hop =>
        obtain ⟨errors, he, herrors⟩ := bind_eq_ok herrors
        obtain ⟨rfl, rfl⟩ : op' = op ∧ errors = [] := by
          simpa [pure, Except.pure] using herrors
        unfold entryOf? at hentry
        split at hentry
        · next s =>
          obtain ⟨rfl, rfl⟩ : Value.str s = name ∧ none = argument := by simpa using hentry
          by_cases hform : op'.form = .nothing
          · refine ⟨{ op := op' }, ?_, makes_of_nothing hform⟩
            simp only [Draft.readStep, Draft.opNamed, hop]
            rfl
          · rw [opErrors, if_neg hform] at he
            cases he
        · next node key v =>
          obtain ⟨rfl, rfl⟩ : key = name ∧ some v = argument := by simpa using hentry
          refine ⟨_, readStep_mapping hop, ?_⟩
          by_cases hform : op'.form = .nothing
          · unfold invocationOf
            rw [hform]
            exact makes_of_nothing hform
          · unfold opErrors at he
            rw [if_neg hform] at he
            exact makes_argument hform hjson.2.1 he
        · cases hentry
      · obtain ⟨_, _, herrors⟩ := bind_eq_ok herrors
        cases herrors
  obtain ⟨i, hi, c, hc, hplain⟩ := hread
  refine ⟨c, ?_, hplain⟩
  rw [callOfStep, hi]
  exact hc

end Suite

/-- The calls that steps stand for that the validator accepts. -/
def Call.Accepted (queries : QueryEngine) (c : Call) : Prop :=
  ∃ step, Suite.Accepts step ∧ Suite.callOfStep queries step = .ok c

theorem Call.Accepted.plain {queries : QueryEngine} {c : Call} (h : c.Accepted queries) :
    c.Plain queries := by
  obtain ⟨step, hstep, hc⟩ := h
  obtain ⟨c', hc', hplain⟩ := hstep.reads queries
  rw [hc] at hc'
  exact Except.ok.inj hc' ▸ hplain

end Attest

import Attest.Proofs.Suite.Conformity

/-!
# What the log says of a call

A runner makes the text of an invocation for the log before it makes the call, and an argument that
has no text interrupts it there. For arguments that conform this is nothing new: what the log shows
of an argument the description of the step shows as well, so a call whose step can be built is put
to the log, and one that cannot be for want of a text fails with the same fault either way.

## Main definitions

* `Call.Buildable` — the step of a call can be built
* `Suite.Performs` — an invocation makes a call, and the log can say so if the call can be built

## Main results

* `Suite.ArgumentFits.performs` — an argument that fits is bound and logged, in every form
-/

namespace Attest

/-- The step of a call can be built, if it queues one. -/
def Call.Buildable (root : Value) (limit : Int) : Call → Prop
  | .queue operation => Succeeds (operation.step root limit)
  | .finish relation n => Succeeds (Step.count relation n)
  | _ => True

namespace Suite

/-- An invocation makes a call, and it can be put to the log if the step of the call can be
built. -/
structure Performs (queries : QueryEngine) (i : Invocation) (call : Call) : Prop where
  binds : callOf queries i = .ok call
  logs : ∀ root limit, call.Buildable root limit → Succeeds (logLine i)

variable {queries : QueryEngine} {op : Op} {v w : Value}

/-! ### The texts of arguments -/

theorem argumentsText_error {empty : Bool} {fault : Fault}
    (h : argumentsText empty v = .error fault) : fault = .tooManyDigits none := by
  cases empty with
  | true => cases h
  | false => exact Value.display_error h

theorem logLine_error {i : Invocation} {fault : Fault} (h : logLine i = .error fault) :
    fault = .tooManyDigits none := by
  rcases bind_eq_error h with h | ⟨_, _, h⟩
  · exact argumentsText_error h
  · rcases bind_eq_error h with h | ⟨_, _, h⟩
    · exact argumentsText_error h
    · cases h

theorem succeeds_argumentsText (empty : Bool) (h : v.Legible) :
    Succeeds (argumentsText empty v) := by
  cases empty with
  | true => exact succeeds_ok _
  | false => exact Value.succeeds_display_iff.mpr h

theorem logs_list {items : List Value} (h : Value.LegibleItems items) :
    Succeeds (logLine { op := op, args := items }) :=
  (succeeds_argumentsText (v := .list items) _ h).bind fun _ _ => succeeds_ok _

theorem logs_one (h : v.Legible) : Succeeds (logLine { op := op, args := [v] }) :=
  logs_list ⟨h, trivial⟩

theorem logs_two (hv : v.Legible) (hw : w.Legible) :
    Succeeds (logLine { op := op, args := [v, w] }) :=
  logs_list ⟨hv, hw, trivial⟩

/-- The log shows no entries but those that lookups come to. -/
theorem mem_firstEntries {name : String} : ∀ {entries : Entries},
    (.str name, v) ∈ firstEntries entries → Value.field? name entries = some v
  | (key, w) :: rest, h => by
    rw [Value.field?, Value.lookup]
    rcases List.mem_cons.mp h with h | h
    · obtain ⟨rfl, rfl⟩ := Prod.mk.inj h
      rw [if_pos (Value.sameKey_str_iff.mpr rfl)]
    · obtain ⟨hmem, hother⟩ := List.mem_filter.mp h
      rw [if_neg fun hsame => ?_]
      · exact mem_firstEntries hmem
      · rw [Value.sameKey_str_iff.mp hsame, Value.sameKey_str_iff.mpr rfl] at hother
        cases hother

theorem firstEntries_subset : ∀ {entries : Entries}, firstEntries entries ⊆ entries
  | [] => List.Subset.refl _
  | e :: _ => List.cons_subset_cons e fun _ h => firstEntries_subset (List.mem_filter.mp h).1

/-- Two arguments that are given by name are shown if their texts can be. -/
theorem logs_named {first : String} {entries : Entries} (honly : HasOnly [first, "value"] entries)
    (hfirst : ∀ v, Value.field? first entries = some v → v.Legible)
    (hvalue : ∀ v, Value.field? "value" entries = some v → v.Legible) :
    Succeeds (logLine { op := op, named := entries }) := by
  have hshown : (Value.dict (firstEntries entries)).Legible := by
    refine Value.legibleEntries_iff_forall.mpr fun e he => ?_
    obtain ⟨key, v⟩ := e
    obtain ⟨name, hname, rfl⟩ := honly _ (firstEntries_subset he)
    have hfield := mem_firstEntries he
    refine ⟨trivial, ?_⟩
    rcases List.mem_pair.mp hname with rfl | rfl
    · exact hfirst v hfield
    · exact hvalue v hfield
  exact (succeeds_argumentsText (v := .list []) _ trivial).bind fun _ _ =>
    (succeeds_argumentsText _ hshown).bind fun _ _ => succeeds_ok _

/-! ### Binding by name -/

/-- A mapping with no other keys than some names gives arguments by these names. -/
theorem HasOnly.exists_named {names : List String} {entries : Entries}
    (h : HasOnly names entries) :
    ∃ named, entriesOfNamed named = entries ∧ ∀ e ∈ named, e.1 ∈ names := by
  induction entries with
  | nil => exact ⟨[], rfl, by simp⟩
  | cons e rest ih =>
    obtain ⟨⟨name, hname, hkey⟩, hrest⟩ := List.forall_mem_cons.mp h
    obtain ⟨named, rfl, hnames⟩ := ih hrest
    have he : (Value.str name, e.2) = e := Prod.ext hkey.symm rfl
    exact ⟨(name, e.2) :: named, congrArg (· :: entriesOfNamed named) he,
      List.forall_mem_cons.mpr ⟨hname, hnames⟩⟩

/-- Two arguments that are given by name are bound, and the second may have a default. -/
theorem exists_bindTwo {call first : String} {entries : Entries} {s : String}
    {default : Option Value} {result : Value → Value → Except Fault Call} (hne : "value" ≠ first)
    (honly : HasOnly [first, "value"] entries) (hfirst : Value.field? first entries = some (.str s))
    (hvalue : default = none → ∃ w, Value.field? "value" entries = some w) :
    ∃ w, (Value.field? "value" entries = some w ∨
        Value.field? "value" entries = none ∧ default = some w) ∧
      (do bindTwo call first "value" default [] (← namedArguments entries) result)
        = result (.str s) w := by
  obtain ⟨named, rfl, hnames⟩ := honly.exists_named
  rw [field?_entriesOfNamed] at hfirst hvalue ⊢
  obtain ⟨w, hw⟩ : ∃ w, named.lookup "value" = some w ∨ named.lookup "value" = none ∧
      default = some w := by
    cases hlookup : named.lookup "value" with
    | some w => exact ⟨w, .inl rfl⟩
    | none =>
      cases default with
      | some w => exact ⟨w, .inr ⟨rfl, rfl⟩⟩
      | none =>
        obtain ⟨w, hw⟩ := hvalue rfl
        rw [hlookup] at hw
        cases hw
  refine ⟨w, hw, ?_⟩
  rw [namedArguments_entriesOfNamed]
  exact bindTwo_of_named hne (by simpa using hnames) hfirst hw

/-! ### Arguments that fit -/

theorem NamesKind.legible (h : NamesKind v) : v.Legible := by
  obtain ⟨kind, rfl⟩ := h
  trivial

theorem legible_of_expectation (h : ∀ e ∈ expectation w, e.Legible) : w.Legible := by
  cases w with
  | missing => trivial
  | _ => exact h _ rfl

theorem performs_of_nothing (h : op.form = .nothing) : ∃ call, Performs queries { op := op } call :=
  have hmakes : Makes queries { op := op } := makes_of_nothing h
  let ⟨call, hcall, _⟩ := hmakes
  ⟨call, hcall, fun _ _ _ => succeeds_ok _⟩

/-- A key or path with a value, in whatever form it is written. -/
theorem PairFits.performs (hform : op.form = .pair)
    (h : PairFits (if op = .containing then "key" else "path") (op = .containing) v) :
    ∃ call, Performs queries (invocationOf op v) call := by
  unfold invocationOf
  rw [hform]
  cases op with
  | containing =>
    have hpair : PairFits "key" true v := h
    have hshown {s : String} {w : Value} {root : Value} {limit : Int}
        (h : Call.Buildable root limit (.queue (.containing (.str s) w))) : w.Legible :=
      Value.succeeds_excerpt_iff.mp ((succeeds_return_iff _).mp h)
    cases hpair with
    | both => exact ⟨_, rfl, fun _ _ h => logs_two trivial (hshown h)⟩
    | named honly hs hvalue =>
      obtain ⟨w, hw, hcall⟩ := exists_bindTwo (by decide) honly hs (fun _ => hvalue rfl)
      refine ⟨_, hcall, fun _ _ h => logs_named honly (fun x hx => ?_) fun x hx => ?_⟩
      · rw [← Option.some.inj (hs.symm.trans hx)]
        trivial
      · rcases hw with hw | ⟨hw, -⟩
        · exact Option.some.inj (hw.symm.trans hx) ▸ hshown h
        · cases hw.symm.trans hx
  | mustContain | mustNotContain =>
    have hpair : PairFits "path" false v := h
    cases hpair with
    | single | alone => exact ⟨_, rfl, fun _ _ _ => logs_one trivial⟩
    | both =>
      refine ⟨_, rfl, fun _ _ h => logs_two trivial (legible_of_expectation ?_)⟩
      exact Operation.succeeds_expectationText_iff_legible.mp ((succeeds_return_iff _).mp h)
    | named honly hs _ =>
      obtain ⟨w, hw, hcall⟩ :=
        exists_bindTwo (by decide) honly hs (nofun : some Value.missing = none → _)
      refine ⟨_, hcall, fun _ _ h => logs_named honly (fun x hx => ?_) fun x hx => ?_⟩
      · rw [← Option.some.inj (hs.symm.trans hx)]
        trivial
      · have hexpected := Operation.succeeds_expectationText_iff_legible.mp
          ((succeeds_return_iff _).mp h)
        rcases hw with hw | ⟨hw, -⟩
        · exact Option.some.inj (hw.symm.trans hx) ▸ legible_of_expectation hexpected
        · cases hw.symm.trans hx
  | _ => cases hform

/-- **An argument that fits is bound and logged**, in every form that it may be written in. -/
theorem ArgumentFits.performs (h : ArgumentFits op v) :
    ∃ call, Performs queries (invocationOf op v) call := by
  unfold ArgumentFits at h
  cases hform : op.form with
  | nothing =>
    unfold invocationOf
    rw [hform]
    exact performs_of_nothing hform
  | pair =>
    simp only [hform] at h
    exact h.performs hform
  | count =>
    simp only [hform] at h
    obtain ⟨n, rfl, _⟩ := h
    simp only [invocationOf, hform]
    cases op with
    | hasSize =>
      refine ⟨_, rfl, fun root limit (h : Succeeds (Step.hasSize (.int n))) => logs_one ?_⟩
      exact Value.succeeds_label_iff.mp ((succeeds_return_iff _).mp h)
    | mustSelected | exactly | atLeast | atMost =>
      refine ⟨_, rfl, fun root limit (h : Succeeds (Step.count _ (.int n))) => logs_one ?_⟩
      exact Value.succeeds_label_iff.mp ((succeeds_return_iff _).mp h)
    | _ => cases hform
  | text =>
    simp only [hform] at h
    obtain ⟨s, rfl⟩ := h
    simp only [invocationOf, hform]
    have hmakes : Makes queries { op := op, args := [.str s] } := makes_of_text hform s
    obtain ⟨call, hcall, -⟩ := hmakes
    exact ⟨call, hcall, fun _ _ _ => logs_one trivial⟩
  | kind =>
    simp only [hform] at h
    simp only [invocationOf, hform]
    have hmakes : Makes queries { op := op, args := [v] } :=
      makes_of_kind hform (namesKind_eq_true_iff.mpr h)
    obtain ⟨call, hcall, -⟩ := hmakes
    exact ⟨call, hcall, fun _ _ _ => logs_one h.legible⟩
  | kinds =>
    simp only [hform] at h
    obtain ⟨node, items, rfl, _, hitems⟩ := h
    simp only [invocationOf, hform]
    have hmakes : Makes queries { op := op, args := [.array node .list items] } :=
      makes_of_kinds hform (allNameKinds_eq_true_iff.mpr hitems)
    obtain ⟨call, hcall, -⟩ := hmakes
    refine ⟨call, hcall, fun _ _ _ => logs_one ?_⟩
    exact Value.legibleItems_iff_forall.mpr fun item hitem => (hitems item hitem).legible
  | criteria =>
    simp only [hform] at h
    obtain ⟨node, entries, rfl, hne⟩ := h
    simp only [invocationOf, hform]
    cases op with
    | matching =>
      cases entries with
      | nil => exact absurd rfl hne
      | cons e rest =>
        refine ⟨_, rfl, fun _ _ h => logs_one ?_⟩
        exact Value.succeeds_excerpt_iff.mp ((succeeds_return_iff _).mp h)
    | _ => cases hform
  | anything =>
    simp only [invocationOf, hform]
    cases op with
    | hasElement | mustBe | mustNotBe =>
      refine ⟨_, rfl, fun _ _ h => logs_one ?_⟩
      exact Value.succeeds_excerpt_iff.mp ((succeeds_return_iff _).mp h)
    | _ => cases hform

end Suite

end Attest

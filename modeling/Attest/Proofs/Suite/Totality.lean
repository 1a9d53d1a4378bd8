import Attest.Proofs.Suite.Conformity

/-!
# Validation that is interrupted

A validator should answer to anything that it is given. This one is interrupted by some data: it
sorts the keys that do not belong, to report them in an order, and keys of several sorts have none;
it looks values up among the names of kinds, which lists and mappings do not allow; it joins the
names of arguments that do not belong, which may be no texts; and it puts keys into its messages,
which an integer with too many digits has no text for.

These are all the places. What is asked of data at each of them is stated here along the grammar,
and the validator is proved to come to an end iff it holds. Nothing is asked of what the validator
does not come to: not of anything below the fields of a suite if one of these is wrong, and of a
list of kinds only up to the first that is none.

## Main definitions

* `Suite.Listable` — keys that can be reported
* `Suite.ArgumentCheckable`, `StepCheckable`, `CheckCheckable` — what is asked of parts of a suite
* `Suite.Checkable` — what is asked of a suite

## Main results

* `Suite.validation_total_iff` — the data that the validator answers to
* `Suite.validation_not_total` — data that it does not answer to
-/

namespace Attest

namespace Suite

/-! ### Keys -/

/-- Keys that can be reported: they can be sorted, and each has a text. -/
def Listable (keys : List Value) : Prop :=
  Value.Sortable keys ∧ ∀ key ∈ keys, Succeeds key.label

theorem Lists.succeeds_iff {errors : List Value → Findings} (h : Lists errors)
    {keys : List Value} : Succeeds (Value.sortKeys keys >>= errors) ↔ Listable keys := by
  obtain ⟨error, herrors⟩ := h
  have heach : ∀ sorted, Succeeds (errors sorted) ↔ ∀ key ∈ sorted, Succeeds key.label := by
    intro sorted
    rw [herrors, succeeds_mapM_iff]
    exact forall₂_congr fun key _ => succeeds_map_iff
  rw [Listable, ← Value.succeeds_sortKeys_iff, succeeds_bind_iff]
  constructor
  · rintro ⟨sorted, hsorted, hlabels⟩
    have hperm := Value.sortKeys_perm hsorted
    exact ⟨⟨sorted, hsorted⟩, fun key hkey =>
      (heach sorted).mp hlabels key (hperm.mem_iff.mpr hkey)⟩
  · rintro ⟨⟨sorted, hsorted⟩, hlabels⟩
    have hperm := Value.sortKeys_perm hsorted
    exact ⟨sorted, hsorted, (heach sorted).mpr fun key hkey =>
      hlabels key (hperm.mem_iff.mp hkey)⟩

/-! ### Arguments -/

/-- Among values there is none before the first that names no kind, this one included, that cannot
be looked up. -/
def KindsCheckable (items : List Value) : Prop :=
  ∀ before v after, items = before ++ v :: after → (∀ w ∈ before, NamesKind w) →
    unsought? v = none

/-- What is asked of an argument. -/
def ArgumentCheckable (op : Op) (v : Value) : Prop :=
  match op.form with
  | .kind => unsought? v = none
  | .kinds => ∀ node items, v = .array node .list items → KindsCheckable items
  | .pair => ∀ node entries, v = .object node .plain entries → ∀ e ∈ entries, ∃ s, e.1 = .str s
  | _ => True

theorem succeeds_namesKind_iff {v : Value} : Succeeds (namesKind v) ↔ unsought? v = none := by
  unfold namesKind
  cases unsought? v with
  | some name => exact iff_of_false (not_succeeds_error _) (by simp)
  | none => exact iff_of_true (succeeds_ok _) rfl

theorem kindsCheckable_cons_iff {v : Value} {rest : List Value} :
    KindsCheckable (v :: rest) ↔ unsought? v = none ∧ (NamesKind v → KindsCheckable rest) := by
  rw [KindsCheckable, forall_place_cons_iff]
  simp only [List.not_mem_nil, false_imp_iff, implies_true, forall_const, List.forall_mem_cons]
  refine and_congr_right fun _ => ⟨fun h hv before w after hsplit hbefore =>
    h before w after hsplit ⟨hv, hbefore⟩, fun h before w after hsplit hbefore =>
      h hbefore.1 before w after hsplit hbefore.2⟩

theorem succeeds_allNameKinds_iff {items : List Value} :
    Succeeds (allNameKinds items) ↔ KindsCheckable items := by
  induction items with
  | nil => exact iff_of_true (succeeds_ok _) fun before v after h => by simp at h
  | cons v rest ih =>
    rw [kindsCheckable_cons_iff, ← succeeds_namesKind_iff, ← ih, allNameKinds,
      succeeds_bind_iff]
    constructor
    · rintro ⟨named, hnamed, hrest⟩
      refine ⟨⟨named, hnamed⟩, fun hv => ?_⟩
      rw [← namesKind_eq_true_iff, hnamed] at hv
      cases hv
      exact hrest
    · rintro ⟨⟨named, hnamed⟩, hrest⟩
      refine ⟨named, hnamed, ?_⟩
      cases named with
      | false => exact succeeds_ok _
      | true => exact hrest (namesKind_eq_true_iff.mp hnamed)

theorem succeeds_joinKeys_iff {keys : List Value} :
    Succeeds (joinKeys keys) ↔ ∀ key ∈ keys, ∃ s, key = .str s := by
  rw [joinKeys, succeeds_return_iff, succeeds_mapM_iff]
  refine forall₂_congr fun key _ => ?_
  cases key with
  | str s => exact iff_of_true (succeeds_ok _) ⟨s, rfl⟩
  | _ => exact iff_of_false (not_succeeds_error _) (by simp)

theorem succeeds_surplusErrors_iff {first path : String} {keys : List Value} :
    Succeeds (surplusErrors first path keys) ↔ ∀ key ∈ keys, ∃ s, key = .str s := by
  cases keys with
  | nil => exact iff_of_true (succeeds_ok _) (by simp)
  | cons key rest =>
    rw [surplusErrors]
    constructor
    · intro h
      obtain ⟨sorted, hsorted, h⟩ := succeeds_bind_iff.mp h
      obtain ⟨names, hnames, _⟩ := succeeds_bind_iff.mp h
      intro k hk
      exact succeeds_joinKeys_iff.mp ⟨names, hnames⟩ k
        ((Value.sortKeys_perm hsorted).mem_iff.mpr hk)
    · intro h
      have hsortable : Value.Sortable (key :: rest) := .inr ⟨.text, fun k hk => by
        obtain ⟨s, rfl⟩ := h k hk
        rfl⟩
      obtain ⟨sorted, hsorted⟩ := Value.succeeds_sortKeys_iff.mpr hsortable
      obtain ⟨names, hnames⟩ := succeeds_joinKeys_iff.mpr fun k hk =>
        h k ((Value.sortKeys_perm hsorted).mem_iff.mp hk)
      rw [hsorted]
      show Succeeds (joinKeys sorted >>= _)
      rw [hnames]
      exact succeeds_ok _

/-- Keys that are none of some names are texts iff all keys are. -/
theorem forall_otherKeys_iff {names : List String} {entries : Entries} :
    (∀ key ∈ otherKeys names entries, ∃ s, key = .str s) ↔ ∀ e ∈ entries, ∃ s, e.1 = .str s := by
  constructor
  · rintro h ⟨key, v⟩ he
    cases key with
    | str s => exact ⟨s, rfl⟩
    | _ =>
      exact h _ (List.mem_filter.mpr ⟨List.mem_map_of_mem he, rfl⟩)
  · intro h key hkey
    obtain ⟨e, he, rfl⟩ := List.mem_map.mp (List.mem_filter.mp hkey).1
    exact h e he

theorem succeeds_pairErrors_iff {first path : String} {required : Bool} {v : Value} :
    Succeeds (pairErrors first required v path) ↔
      ∀ node entries, v = .object node .plain entries → ∀ e ∈ entries, ∃ s, e.1 = .str s := by
  cases v with
  | object node form entries =>
    cases form with
    | plain =>
      rw [pairErrors_mapping_eq, succeeds_map_iff, succeeds_surplusErrors_iff,
        forall_otherKeys_iff]
      simp
    | view => exact iff_of_true (succeeds_ok _) (by simp)
  | array node form items =>
    cases form with
    | list =>
      refine iff_of_true ?_ (by simp)
      unfold pairErrors
      dsimp only
      repeat' split
      all_goals exact succeeds_ok _
    | tuple => exact iff_of_true (succeeds_ok _) (by simp)
  | _ => exact iff_of_true (succeeds_ok _) (by simp)

theorem succeeds_argumentErrors_iff {op : Op} {v : Value} {path : String} :
    Succeeds (argumentErrors op v path) ↔ ArgumentCheckable op v := by
  unfold argumentErrors ArgumentCheckable
  cases op.form with
  | kind => exact (succeeds_return_iff _).trans succeeds_namesKind_iff
  | kinds =>
    cases v with
    | array node form items =>
      cases form with
      | tuple => exact iff_of_true (succeeds_ok _) (by simp)
      | list =>
        cases items with
        | nil =>
          refine iff_of_true (succeeds_ok _) ?_
          rintro _ _ ⟨⟩ before v after h
          simp at h
        | cons item rest =>
          have hsame : (∀ node' items, Value.array node .list (item :: rest)
              = .array node' .list items → KindsCheckable items) ↔
                KindsCheckable (item :: rest) := by
            refine ⟨fun h => h _ _ rfl, ?_⟩
            rintro h _ _ ⟨⟩
            exact h
          rw [hsame, ← succeeds_allNameKinds_iff]
          exact succeeds_return_iff _
    | _ => exact iff_of_true (succeeds_ok _) (by simp)
  | pair => exact succeeds_pairErrors_iff
  | nothing | anything => exact iff_of_true (succeeds_ok _) trivial
  | count | text => cases v <;> exact iff_of_true (succeeds_ok _) trivial
  | criteria =>
    refine iff_of_true ?_ trivial
    dsimp only
    split <;> exact succeeds_ok _

/-! ### Steps -/

/-- What is asked of a step: of the argument if it names an operation, and of the name if not. -/
structure StepCheckable (step : Value) : Prop where
  argument : ∀ op node v, step = .object node .plain [(.str op.name, v)] → ArgumentCheckable op v
  name : ∀ node name v, step = .object node .plain [(name, v)] → opOf? name = none →
    Succeeds name.label

theorem succeeds_opErrors_given_iff {op : Op} {v : Value} {path : String} :
    Succeeds (opErrors op (some v) path) ↔ ArgumentCheckable op v := by
  unfold opErrors
  split
  · next h =>
    refine iff_of_true ?_ (by rw [ArgumentCheckable, h]; trivial)
    cases v <;> exact succeeds_ok _
  · exact succeeds_argumentErrors_iff

theorem succeeds_opErrors_bare {op : Op} {path : String} : Succeeds (opErrors op none path) := by
  unfold opErrors
  split <;> exact succeeds_ok _

theorem succeeds_stepErrors_iff {step : Value} (path : String) :
    Succeeds (stepErrors step path) ↔ StepCheckable step := by
  cases he : entryOf? step with
  | none =>
    have hvacuous : ∀ node name v, step ≠ .object node .plain [(name, v)] := by
      rintro node name v rfl
      cases he
    refine iff_of_true ?_
      ⟨fun op node v h => absurd h (hvacuous _ _ _), fun node name v h => absurd h (hvacuous _ _ _)⟩
    simp only [stepErrors, he]
    exact succeeds_ok _
  | some entry =>
    obtain ⟨name, argument⟩ := entry
    rw [stepErrors_of_entry he, entryErrors]
    unfold entryOf? at he
    split at he <;> cases he
    · next s =>
      refine iff_of_true ?_ ⟨by rintro _ _ _ ⟨⟩, by rintro _ _ _ ⟨⟩⟩
      cases opOf? (.str s) with
      | none => exact succeeds_ok _
      | some op => exact succeeds_opErrors_bare.map _
    · next node v =>
      cases hop : opOf? name with
      | none =>
        rw [succeeds_map_iff]
        refine ⟨fun hlabel => ⟨?_, ?_⟩, fun h => h.name _ _ _ rfl hop⟩
        · rintro op _ _ ⟨⟩
          rw [opOf?_eq_some_iff.mpr rfl] at hop
          cases hop
        · rintro _ _ _ ⟨⟩ _
          exact hlabel
      | some op =>
        rw [succeeds_map_iff, succeeds_opErrors_given_iff]
        refine ⟨fun harg => ⟨?_, ?_⟩, fun h => ?_⟩
        · rintro other _ _ ⟨⟩
          rw [opOf?_eq_some_iff.mpr rfl] at hop
          cases hop
          exact harg
        · rintro _ _ _ ⟨⟩ hnone
          rw [hop] at hnone
          cases hnone
        · obtain rfl := opOf?_eq_some_iff.mp hop
          exact h.argument _ _ _ rfl

theorem succeeds_stepsErrorsFrom_iff (path : String) {index depth : Nat} {steps : List Value} :
    Succeeds (stepsErrorsFrom path index depth steps) ↔ ∀ step ∈ steps, StepCheckable step := by
  induction steps generalizing index depth with
  | nil => exact iff_of_true (succeeds_ok _) (by simp)
  | cons step rest ih =>
    rw [List.forall_mem_cons, ← succeeds_stepErrors_iff s!"{path}[{index}]"]
    cases hstep : stepErrors step s!"{path}[{index}]" with
    | error fault =>
      rw [stepsErrorsFrom_of_error hstep]
      exact iff_of_false (not_succeeds_error _) fun h => not_succeeds_error _ h.1
    | ok result =>
      obtain ⟨found, errors⟩ := result
      rw [and_iff_right (succeeds_ok _)]
      cases found with
      | none =>
        rw [stepsErrorsFrom_of_none hstep]
        exact (succeeds_return_iff _).trans ih
      | some op =>
        rw [stepsErrorsFrom_of_op hstep]
        exact (succeeds_return_iff _).trans ih

theorem succeeds_stepsErrors_iff {path : String} {steps : List Value} :
    Succeeds (stepsErrors steps path) ↔ ∀ step ∈ steps, StepCheckable step := by
  rw [stepsErrors, ← succeeds_stepsErrorsFrom_iff path]
  exact succeeds_return_iff _

/-! ### Checks -/

/-- What is asked of a check. -/
structure CheckCheckable (check : Value) : Prop where
  fields : ∀ node entries, check = .object node .plain entries →
    Listable (otherKeys checkFields entries)
  steps : ∀ node entries, check = .object node .plain entries →
    ∀ node' steps, Value.field? "steps" entries = some (.array node' .list steps) →
      ∀ step ∈ steps, StepCheckable step

theorem succeeds_stepsFieldErrors_iff {path : String} {v : Value} :
    Succeeds (stepsFieldErrors path v) ↔
      ∀ node steps, v = .array node .list steps → ∀ step ∈ steps, StepCheckable step := by
  cases v with
  | array node form items =>
    cases form with
    | tuple => exact iff_of_true (succeeds_ok _) (by simp)
    | list =>
      cases items with
      | nil => exact iff_of_true (succeeds_ok _) (by simp)
      | cons step rest =>
        rw [stepsFieldErrors, succeeds_stepsErrors_iff]
        simp
  | _ => exact iff_of_true (succeeds_ok _) (by simp)

theorem succeeds_checkErrors_iff {seen : List String} {check : Value} {path : String} :
    Succeeds (checkErrors seen check path) ↔ CheckCheckable check := by
  have hother : (∀ node entries, check ≠ .object node .plain entries) → CheckCheckable check :=
    fun h => ⟨fun _ _ he => absurd he (h _ _), fun _ _ he => absurd he (h _ _)⟩
  cases check with
  | object node form entries =>
    cases form with
    | view => exact iff_of_true (succeeds_ok _) (hother (by simp))
    | plain =>
      rw [checkErrors_mapping_eq, succeeds_bind_iff]
      constructor
      · rintro ⟨unknown, hunknown, h⟩
        have hfields := (lists_unknownCheckFields path).succeeds_iff.mp ⟨unknown, hunknown⟩
        have hsteps := succeeds_stepsFieldErrors_iff.mp ((succeeds_return_iff _).mp h)
        refine ⟨by rintro _ _ ⟨⟩; exact hfields, ?_⟩
        rintro _ _ ⟨⟩ node' steps hgiven
        exact hsteps node' steps ((entryOr_eq_iff (by simp)).mpr hgiven)
      · rintro ⟨hfields, hsteps⟩
        obtain ⟨unknown, hunknown⟩ :=
          (lists_unknownCheckFields path).succeeds_iff.mpr (hfields _ _ rfl)
        refine ⟨unknown, hunknown, (succeeds_return_iff _).mpr ?_⟩
        refine succeeds_stepsFieldErrors_iff.mpr fun node' steps hgiven => ?_
        exact hsteps _ _ rfl node' steps ((entryOr_eq_iff (by simp)).mp hgiven)
  | _ => exact iff_of_true (succeeds_ok _) (hother (by simp))

theorem succeeds_checksErrorsFrom_iff {seen : List String} {index : Nat} {checks : List Value} :
    Succeeds (checksErrorsFrom seen index checks) ↔ ∀ check ∈ checks, CheckCheckable check := by
  induction checks generalizing seen index with
  | nil => exact iff_of_true (succeeds_ok _) (by simp)
  | cons check rest ih =>
    rw [checksErrorsFrom, List.forall_mem_cons, succeeds_bind_iff]
    constructor
    · rintro ⟨⟨errors, taken⟩, hcheck, h⟩
      exact ⟨succeeds_checkErrors_iff.mp ⟨_, hcheck⟩, ih.mp ((succeeds_return_iff _).mp h)⟩
    · rintro ⟨hcheck, hrest⟩
      obtain ⟨⟨errors, taken⟩, hcheck⟩ := succeeds_checkErrors_iff.mpr hcheck
      exact ⟨_, hcheck, (succeeds_return_iff _).mpr (ih.mpr hrest)⟩

theorem succeeds_checksErrors_iff {v : Value} :
    Succeeds (checksErrors v) ↔
      ∀ node checks, v = .array node .list checks → ∀ check ∈ checks, CheckCheckable check := by
  cases v with
  | array node form items =>
    cases form with
    | tuple => exact iff_of_true (succeeds_ok _) (by simp)
    | list =>
      cases items with
      | nil => exact iff_of_true (succeeds_ok _) (by simp)
      | cons check rest =>
        rw [checksErrors, succeeds_checksErrorsFrom_iff]
        · simp
        · simp
  | _ => exact iff_of_true (succeeds_ok _) (by simp)

/-! ### Suites -/

theorem succeeds_defaultsErrors_iff {v : Value} :
    Succeeds (defaultsErrors v) ↔
      ∀ node fields, v = .object node .plain fields →
        Listable (otherKeys ["max_value_length"] fields) := by
  cases v with
  | object node form fields =>
    cases form with
    | view => exact iff_of_true (succeeds_ok _) (by simp)
    | plain =>
      rw [defaultsErrors_mapping_eq, succeeds_map_iff, lists_unknownDefaults.succeeds_iff]
      simp
  | _ => exact iff_of_true (succeeds_ok _) (by simp)

/-- The suite has the fields that it needs, and no others. -/
def HasFields (entries : Entries) : Prop :=
  (∀ name ∈ ["checks", "name", "version"], (Value.field? name entries).isSome) ∧
    HasOnly ["checks", "defaults", "name", "version"] entries

/-- What is asked of a suite. -/
structure Checkable (entries : Entries) : Prop where
  fields : Listable (otherKeys suiteFields entries)
  defaults : HasFields entries → ∀ node fields,
    Value.field? "defaults" entries = some (.object node .plain fields) →
      Listable (otherKeys ["max_value_length"] fields)
  checks : HasFields entries → ∀ node checks,
    Value.field? "checks" entries = some (.array node .list checks) →
      ∀ check ∈ checks, CheckCheckable check

theorem succeeds_schemaErrors_iff {entries : Entries} :
    Succeeds (schemaErrors entries) ↔ Checkable entries := by
  have htop : Succeeds (topLevelErrors entries) ↔ Listable (otherKeys suiteFields entries) := by
    rw [topLevelErrors_eq, succeeds_map_iff, lists_unknownFields.succeeds_iff]
  rw [schemaErrors_eq, succeeds_bind_iff]
  constructor
  · rintro ⟨top, hfound, h⟩
    have hrest : HasFields entries →
        Succeeds (defaultsErrors (entryOr "defaults" entries)) ∧
          Succeeds (checksErrors (entryOr "checks" entries)) := by
      intro hfields
      rw [topLevelErrors_eq_nil_iff.mpr hfields] at hfound
      cases hfound
      obtain ⟨defaults, hdefaults, h⟩ := succeeds_bind_iff.mp h
      obtain ⟨checks, hchecks, _⟩ := succeeds_bind_iff.mp h
      exact ⟨⟨defaults, hdefaults⟩, checks, hchecks⟩
    refine ⟨htop.mp ⟨top, hfound⟩, fun hfields node fields hgiven => ?_,
      fun hfields node checks hgiven => ?_⟩
    · exact succeeds_defaultsErrors_iff.mp (hrest hfields).1 node fields
        ((entryOr_eq_iff (by simp)).mpr hgiven)
    · exact succeeds_checksErrors_iff.mp (hrest hfields).2 node checks
        ((entryOr_eq_iff (by simp)).mpr hgiven)
  · intro h
    obtain ⟨top, hfound⟩ := htop.mpr h.fields
    refine ⟨top, hfound, ?_⟩
    cases top with
    | cons error rest => exact succeeds_ok _
    | nil =>
      have hfields : HasFields entries := topLevelErrors_eq_nil_iff.mp hfound
      obtain ⟨defaults, hdefaults⟩ := succeeds_defaultsErrors_iff.mpr fun node fields hgiven =>
        h.defaults hfields node fields ((entryOr_eq_iff (by simp)).mp hgiven)
      obtain ⟨checks, hchecks⟩ := succeeds_checksErrors_iff.mpr fun node checks hgiven =>
        h.checks hfields node checks ((entryOr_eq_iff (by simp)).mp hgiven)
      simp only [List.isEmpty_nil, if_true, hdefaults, hchecks]
      exact succeeds_ok _

/-- **The data that the validator answers to.** It is not interrupted iff nothing in the data keeps
it from reporting what it finds, and then it does report something unless the suite conforms. -/
theorem validation_total_iff (entries : Entries) :
    (Succeeds (schemaErrors entries) ↔ Checkable entries) ∧
      ((∃ error rest, schemaErrors entries = .ok (error :: rest)) ↔
        Checkable entries ∧ ¬ Conforms entries) := by
  refine ⟨succeeds_schemaErrors_iff, ?_⟩
  rw [← succeeds_schemaErrors_iff, ← schemaErrors_eq_nil_iff]
  cases schemaErrors entries with
  | error fault => simp [not_succeeds_error]
  | ok errors => cases errors <;> simp [succeeds_ok]

/-- A suite that is meant but for the name of a kind, which stands in a list. -/
def listedKind : Entries :=
  [(.str "version", .int 1), (.str "name", .str "n"),
    (.str "checks", .list [.record [("id", .str "a"), ("document", .int 1),
      ("steps", .list [.record [("is_type", .list [.str "string"])]])]])]

/-- **Validation is not total.** It is interrupted by a list in the place of the name of a kind, and
by keys of which one is a text and one is null. -/
theorem validation_not_total :
    ¬ Succeeds (schemaErrors listedKind) ∧
      ¬ Succeeds (schemaErrors [(.null, .null), (.str "a", .null)]) :=
  ⟨not_succeeds_iff.mpr ⟨.unsuitable "unhashable type: 'list'", rfl⟩,
    not_succeeds_iff.mpr ⟨_, rfl⟩⟩

end Suite

end Attest

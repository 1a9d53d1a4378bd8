import Attest.Proofs.Suite.Grammar

/-!
# The grammar of suites

Above the steps of a check stand the fields of checks and those of the suite. As for steps, what
they may hold is stated first, and then the validator is proved to report nothing of exactly the
suites that keep to it.

The ids of checks have to be distinct, which the validator sees to with the list of the ids that are
taken. The statement about a list of checks is made for every list of taken ids, and its checks are
put in relation to their ids, as steps are to their operations.

## Main definitions

* `Suite.Lists` — errors that are one for each of some keys
* `Suite.CheckConforms`, `Suite.CheckIs` — the fields of a check, and a check with its id
* `Suite.DefaultsConform`, `Suite.ChecksConform` — the values of two fields of a suite
* `Suite.Conforms` — the suites that are meant

## Main results

* `Suite.checkErrors_eq_nil_iff` — a single check, given the ids that are taken
* `Suite.valid_iff_conforms` — the validator accepts exactly what is meant
-/

namespace Attest

namespace Suite

/-! ### Keys that do not belong -/

/-- Errors that are one for each key, made of the key and its text. -/
def Lists (errors : List Value → Findings) : Prop :=
  ∃ error : Value → String → SuiteError,
    ∀ keys, errors keys = keys.mapM fun key => key.label.map (error key)

theorem lists_of_eqns {errors : List Value → Findings} (error : Value → String → SuiteError)
    (hnil : errors [] = .ok [])
    (hcons : ∀ key rest, errors (key :: rest) = do
      let shown ← key.label
      let others ← errors rest
      return error key shown :: others) : Lists errors := by
  refine ⟨error, fun keys => ?_⟩
  induction keys with
  | nil => exact hnil
  | cons key rest ih =>
    rw [hcons, List.mapM_cons, ih]
    cases key.label <;> rfl

theorem lists_unknownFields : Lists unknownFields := lists_of_eqns _ rfl fun _ _ => rfl

theorem lists_unknownDefaults : Lists unknownDefaults := lists_of_eqns _ rfl fun _ _ => rfl

theorem lists_unknownCheckFields (path : String) : Lists (unknownCheckFields path) :=
  lists_of_eqns _ rfl fun _ _ => rfl

/-- Sorted keys are reported one by one, so none is reported iff there is none. -/
theorem Lists.eq_nil_iff {errors : List Value → Findings} (h : Lists errors) {keys : List Value} :
    Value.sortKeys keys >>= errors = .ok [] ↔ keys = [] := by
  obtain ⟨error, herrors⟩ := h
  constructor
  · intro hnil
    obtain ⟨sorted, hsorted, hnil⟩ := bind_eq_ok hnil
    have hperm := Value.sortKeys_perm hsorted
    rw [herrors] at hnil
    cases sorted with
    | nil => exact hperm.symm.eq_nil
    | cons key rest =>
      rw [List.mapM_cons] at hnil
      obtain ⟨_, _, hnil⟩ := bind_eq_ok hnil
      obtain ⟨_, _, hnil⟩ := bind_eq_ok hnil
      cases hnil
  · rintro rfl
    exact herrors []

/-! ### Checks -/

/-- The fields of a check with an id. -/
structure CheckConforms (id : String) (entries : Entries) : Prop where
  fields : HasOnly
    ["description", "document", "document_file", "document_text", "id", "steps"] entries
  id : Value.field? "id" entries = some (.str id) ∧ isBlankText id = false
  description : ∀ v, Value.field? "description" entries = some v → v = .null ∨ ∃ s, v = .str s
  source : ∃! name, name ∈ ["document", "document_text", "document_file"] ∧
    (Value.field? name entries).isSome
  texts : ∀ name ∈ ["document_text", "document_file"], ∀ v, Value.field? name entries = some v →
    ∃ s, v = .str s
  steps : ∃ node steps, Value.field? "steps" entries = some (.array node .list steps) ∧
    StepsConform steps

/-- A check is a mapping that conforms. -/
inductive CheckIs : Value → String → Prop where
  | mk {node : NodeId} {entries : Entries} {id : String} : CheckConforms id entries →
      CheckIs (.object node .plain entries) id

/-- The checks of a suite: there are some, and their ids are distinct. -/
def ChecksConform (checks : List Value) : Prop :=
  checks ≠ [] ∧ ∃ ids, List.Forall₂ CheckIs checks ids ∧ ids.Nodup

theorem idErrors_eq_nil_iff {seen taken : List String} {v : Value} {path : String} :
    idErrors seen v path = ([], taken) ↔
      ∃ id, (v = .str id ∧ isBlankText id = false) ∧ id ∉ seen ∧ taken = id :: seen := by
  cases v with
  | str s =>
    have hid : ∀ {p : String → Prop}, (∃ id, (Value.str s = .str id ∧ isBlankText id = false) ∧
        p id) ↔ isBlankText s = false ∧ p s := by
      intro p
      constructor
      · rintro ⟨_, ⟨⟨⟩, hblank⟩, hp⟩
        exact ⟨hblank, hp⟩
      · rintro ⟨hblank, hp⟩
        exact ⟨s, ⟨rfl, hblank⟩, hp⟩
    rw [hid, idErrors]
    split
    · next hblank => simp [hblank]
    · next hblank =>
      rw [Bool.not_eq_true] at hblank
      split
      · next hseen => simp [List.contains_iff_mem.mp hseen]
      · next hseen =>
        have hseen : s ∉ seen := fun hmem => hseen (List.contains_iff_mem.mpr hmem)
        simp only [Prod.mk.injEq, true_and, hblank, hseen, not_false_eq_true]
        exact eq_comm
  | _ => simp [idErrors]

theorem descriptionErrors_eq_nil_iff {v : Value} {path : String} :
    descriptionErrors v path = [] ↔ v = .null ∨ ∃ s, v = .str s := by
  cases v <;> simp [descriptionErrors]

theorem textFieldErrors_eq_nil_iff {name path : String} {entries : Entries} :
    textFieldErrors name entries path = [] ↔
      ∀ v, Value.field? name entries = some v → ∃ s, v = .str s := by
  unfold textFieldErrors
  cases Value.field? name entries with
  | none => simp
  | some v => cases v <;> simp

/-- Exactly one element of a list passes a test. -/
theorem length_filter_eq_one_iff {α : Type} {p : α → Bool} {l : List α} (hl : l.Nodup) :
    (l.filter p).length = 1 ↔ ∃! a, a ∈ l ∧ p a = true := by
  constructor
  · intro h
    obtain ⟨a, ha⟩ := List.length_eq_one_iff.mp h
    have hmem : ∀ b, b ∈ l ∧ p b = true ↔ b = a := fun b => by
      rw [← List.mem_filter, ha, List.mem_singleton]
    exact ⟨a, (hmem a).mpr rfl, fun b hb => (hmem b).mp hb⟩
  · rintro ⟨a, ha, honly⟩
    have hnodup := hl.filter p
    have hall : ∀ b ∈ l.filter p, b = a := fun b hb => honly b (List.mem_filter.mp hb)
    match hfilter : l.filter p with
    | [] =>
      have hmem := List.mem_filter.mpr ha
      rw [hfilter] at hmem
      cases hmem
    | [_] => rfl
    | b :: c :: _ =>
      rw [hfilter] at hnodup hall
      have hbc : b = c := (hall b (by simp)).trans (hall c (by simp)).symm
      simp [hbc] at hnodup

theorem sourceErrors_eq_nil_iff {entries : Entries} {path : String} :
    sourceErrors entries path = [] ↔
      (∃! name, name ∈ ["document", "document_text", "document_file"] ∧
        (Value.field? name entries).isSome) ∧
      ∀ name ∈ ["document_text", "document_file"], ∀ v, Value.field? name entries = some v →
        ∃ s, v = .str s := by
  rw [← length_filter_eq_one_iff (by decide)]
  simp only [sourceErrors, List.append_eq_nil_iff, textFieldErrors_eq_nil_iff,
    List.forall_mem_cons, List.not_mem_nil, false_imp_iff, implies_true, and_true, and_assoc]
  refine and_congr_left fun _ => ?_
  split <;> simp_all [documentSources]

/-- The errors of the steps of a check, which are missing if there are none. -/
def stepsFieldErrors (path : String) : Value → Findings
  | .array _ .list (step :: rest) => stepsErrors (step :: rest) (path ++ ".steps")
  | v => .ok [(problem (path ++ ".steps") "Must be a non-empty list").got v]

theorem checkErrors_mapping_eq (seen : List String) (node : NodeId) (entries : Entries)
    (path : String) : checkErrors seen (.object node .plain entries) path = do
      let unknown ← Value.sortKeys (otherKeys checkFields entries) >>= unknownCheckFields path
      let steps ← stepsFieldErrors path (entryOr "steps" entries)
      return (unknown ++ (idErrors seen (entryOr "id" entries) path).1
        ++ (descriptionErrors (entryOr "description" entries) path ++ sourceErrors entries path)
        ++ steps, (idErrors seen (entryOr "id" entries) path).2) := by
  simp only [checkErrors]
  cases Value.sortKeys (otherKeys checkFields entries) with
  | error fault => rfl
  | ok sorted =>
    cases hunknown : unknownCheckFields path sorted with
    | error fault => simp only [bind, Except.bind, hunknown]
    | ok unknown =>
      simp only [bind, Except.bind, hunknown]
      generalize entryOr "steps" entries = steps
      cases steps with
      | array node form items => cases form <;> cases items <;> rfl
      | _ => rfl

theorem stepsFieldErrors_eq_nil_iff {v : Value} {path : String} :
    stepsFieldErrors path v = .ok [] ↔
      ∃ node steps, v = .array node .list steps ∧ StepsConform steps := by
  cases v with
  | array node form items =>
    cases form with
    | tuple => simp [stepsFieldErrors]
    | list =>
      cases items with
      | nil => simp [stepsFieldErrors, StepsConform]
      | cons step rest =>
        rw [stepsFieldErrors, stepsErrors_eq_nil_iff]
        simp [StepsConform]
  | _ => simp [stepsFieldErrors]

/-- **Nothing is wrong with a check iff it conforms and its id is not taken.** -/
theorem checkErrors_eq_nil_iff {seen taken : List String} {check : Value} {path : String} :
    checkErrors seen check path = .ok ([], taken) ↔
      ∃ id, CheckIs check id ∧ id ∉ seen ∧ taken = id :: seen := by
  have hmapping : ∀ {node entries},
      checkErrors seen (.object node .plain entries) path = .ok ([], taken) ↔
        ∃ id, CheckConforms id entries ∧ id ∉ seen ∧ taken = id :: seen := by
    intro node entries
    rw [checkErrors_mapping_eq]
    constructor
    · intro h
      obtain ⟨unknown, hunknown, h⟩ := bind_eq_ok h
      obtain ⟨steps, hsteps, h⟩ := bind_eq_ok h
      obtain ⟨hnil, htaken⟩ := Prod.mk.inj (Except.ok.inj h)
      simp only [List.append_eq_nil_iff] at hnil
      obtain ⟨⟨⟨rfl, hid⟩, hdescription, hsource⟩, rfl⟩ := hnil
      obtain ⟨id, ⟨hid, hblank⟩, hseen, htaken⟩ := idErrors_eq_nil_iff.mp (Prod.ext hid htaken)
      obtain ⟨hone, htexts⟩ := sourceErrors_eq_nil_iff.mp hsource
      obtain ⟨node', given, hgiven, hconform⟩ := stepsFieldErrors_eq_nil_iff.mp hsteps
      have hfields := (lists_unknownCheckFields path).eq_nil_iff.mp hunknown
      refine ⟨id, ?_, hseen, htaken⟩
      constructor
      case fields => exact otherKeys_eq_nil_iff.mp hfields
      case id => exact ⟨(entryOr_eq_iff (by simp)).mp hid, hblank⟩
      case description =>
        exact (forall_field_iff (.inl rfl)).mp (descriptionErrors_eq_nil_iff.mp hdescription)
      case source => exact hone
      case texts => exact htexts
      case steps => exact ⟨node', given, (entryOr_eq_iff (by simp)).mp hgiven, hconform⟩
    · rintro ⟨id, h, hseen, htaken⟩
      obtain ⟨node', given, hgiven, hconform⟩ := h.steps
      have hfields : Value.sortKeys (otherKeys checkFields entries) >>= unknownCheckFields path
          = .ok [] :=
        (lists_unknownCheckFields path).eq_nil_iff.mpr (otherKeys_eq_nil_iff.mpr h.fields)
      have hid : entryOr "id" entries = .str id := (entryOr_eq_iff (by simp)).mpr h.id.1
      have hsteps : entryOr "steps" entries = .array node' .list given :=
        (entryOr_eq_iff (by simp)).mpr hgiven
      rw [hfields, stepsFieldErrors_eq_nil_iff.mpr ⟨node', given, hsteps, hconform⟩,
        idErrors_eq_nil_iff.mpr ⟨id, ⟨hid, h.id.2⟩, hseen, htaken⟩,
        descriptionErrors_eq_nil_iff.mpr ((forall_field_iff (.inl rfl)).mpr h.description),
        sourceErrors_eq_nil_iff.mpr ⟨h.source, h.texts⟩]
      rfl
  cases check with
  | object node form entries =>
    cases form with
    | plain =>
      rw [hmapping]
      refine exists_congr fun id => and_congr_left fun _ => ⟨.mk, ?_⟩
      rintro ⟨h⟩
      exact h
    | view => exact iff_of_false (by simp [checkErrors]) (by rintro ⟨_, ⟨⟩, _⟩)
  | _ => exact iff_of_false (by simp [checkErrors]) (by rintro ⟨_, ⟨⟩, _⟩)

theorem checksErrorsFrom_eq_nil_iff {seen : List String} {index : Nat} {checks : List Value} :
    checksErrorsFrom seen index checks = .ok [] ↔
      ∃ ids, List.Forall₂ CheckIs checks ids ∧ ids.Nodup ∧ ∀ id ∈ ids, id ∉ seen := by
  induction checks generalizing seen index with
  | nil => exact iff_of_true rfl ⟨[], .nil, List.nodup_nil, by simp⟩
  | cons check rest ih =>
    rw [checksErrorsFrom]
    constructor
    · intro h
      obtain ⟨⟨errors, taken⟩, hcheck, h⟩ := bind_eq_ok h
      obtain ⟨others, hothers, h⟩ := bind_eq_ok h
      obtain ⟨rfl, rfl⟩ := List.append_eq_nil_iff.mp (Except.ok.inj h)
      obtain ⟨id, his, hseen, rfl⟩ := checkErrors_eq_nil_iff.mp hcheck
      obtain ⟨ids, hids, hnodup, hfresh⟩ := ih.mp hothers
      simp only [List.mem_cons, not_or] at hfresh
      refine ⟨id :: ids, .cons his hids, List.nodup_cons.mpr ⟨fun hid => ?_, hnodup⟩,
        List.forall_mem_cons.mpr ⟨hseen, fun other hother => (hfresh other hother).2⟩⟩
      exact (hfresh id hid).1 rfl
    · rintro ⟨_, hids, hnodup, hfresh⟩
      cases hids with
      | @cons _ id _ ids his hids =>
        obtain ⟨hid, hnodup⟩ := List.nodup_cons.mp hnodup
        obtain ⟨hseen, hfresh⟩ := List.forall_mem_cons.mp hfresh
        rw [checkErrors_eq_nil_iff.mpr ⟨id, his, hseen, rfl⟩]
        have hrest : checksErrorsFrom (id :: seen) (index + 1) rest = .ok [] := by
          refine ih.mpr ⟨ids, hids, hnodup, fun other hother hmem => ?_⟩
          rcases List.mem_cons.mp hmem with rfl | hmem
          · exact hid hother
          · exact hfresh other hother hmem
        show (checksErrorsFrom (id :: seen) (index + 1) rest >>= _) = _
        rw [hrest]
        rfl

theorem checksErrors_eq_nil_iff {v : Value} :
    checksErrors v = .ok [] ↔ ∃ node checks, v = .array node .list checks ∧
      ChecksConform checks := by
  cases v with
  | array node form items =>
    cases form with
    | tuple => simp [checksErrors]
    | list =>
      cases items with
      | nil => simp [checksErrors, ChecksConform]
      | cons check rest =>
        rw [checksErrors, checksErrorsFrom_eq_nil_iff]
        · simp [ChecksConform]
        · simp
  | _ => simp [checksErrors]

/-! ### Suites -/

/-- The defaults of a suite, if there are any. -/
def DefaultsConform (v : Value) : Prop :=
  v = .null ∨ ∃ node entries, v = .object node .plain entries ∧
    HasOnly ["max_value_length"] entries ∧
    ∀ length, Value.field? "max_value_length" entries = some length →
      ∃ n : Int, length = .int n ∧ 10 ≤ n

/-- The suites that are meant. -/
structure Conforms (entries : Entries) : Prop where
  fields : HasOnly ["checks", "defaults", "name", "version"] entries
  version : ∃ n : Int, Value.field? "version" entries = some (.int n) ∧ 1 ≤ n
  name : ∃ s, Value.field? "name" entries = some (.str s) ∧ isBlankText s = false
  defaults : ∀ v, Value.field? "defaults" entries = some v → DefaultsConform v
  checks : ∃ node checks, Value.field? "checks" entries = some (.array node .list checks) ∧
    ChecksConform checks

theorem topLevelErrors_eq (entries : Entries) : topLevelErrors entries
    = (Value.sortKeys (otherKeys suiteFields entries) >>= unknownFields).map fun unknown =>
        (requiredFields.filter fun name => (Value.field? name entries).isNone).map missingField
          ++ unknown := by
  rw [topLevelErrors]
  cases Value.sortKeys (otherKeys suiteFields entries) with
  | error fault => rfl
  | ok sorted => cases h : unknownFields sorted <;> simp only [bind, Except.bind, h] <;> rfl

theorem topLevelErrors_eq_nil_iff {entries : Entries} : topLevelErrors entries = .ok [] ↔
    (∀ name ∈ ["checks", "name", "version"], (Value.field? name entries).isSome) ∧
      HasOnly ["checks", "defaults", "name", "version"] entries := by
  have hmap : ∀ {x : Findings} {more : List SuiteError},
      x.map (more ++ ·) = .ok [] ↔ more = [] ∧ x = .ok [] := by
    intro x more
    cases x <;> simp [Except.map]
  rw [topLevelErrors_eq, hmap, lists_unknownFields.eq_nil_iff, List.map_eq_nil_iff,
    List.filter_eq_nil_iff]
  refine and_congr ?_ otherKeys_eq_nil_iff
  refine forall₂_congr fun name _ => ?_
  cases Value.field? name entries <;> simp

theorem versionErrors_eq_nil_iff {v : Value} :
    versionErrors v = [] ↔ ∃ n : Int, v = .int n ∧ 1 ≤ n := by
  cases v <;> simp [versionErrors]

theorem nameErrors_eq_nil_iff {v : Value} :
    nameErrors v = [] ↔ ∃ s, v = .str s ∧ isBlankText s = false := by
  cases v <;> simp [nameErrors]

theorem lengthErrors_eq_nil_iff {length : Value} :
    lengthErrors length = [] ↔ ∃ n : Int, length = .int n ∧ 10 ≤ n := by
  cases length <;> simp [lengthErrors, minValueLength]

/-- The errors of the defaults because of a length. -/
def givenLengthErrors : Option Value → List SuiteError
  | some length => lengthErrors length
  | none => []

theorem defaultsErrors_mapping_eq (node : NodeId) (entries : Entries) :
    defaultsErrors (.object node .plain entries)
      = (Value.sortKeys (otherKeys ["max_value_length"] entries) >>= unknownDefaults).map
          (· ++ givenLengthErrors (Value.field? "max_value_length" entries)) := by
  simp only [defaultsErrors]
  cases Value.sortKeys (otherKeys ["max_value_length"] entries) with
  | error fault => rfl
  | ok sorted =>
    cases h : unknownDefaults sorted <;> simp only [bind, Except.bind, h] <;> rfl

theorem defaultsErrors_eq_nil_iff {v : Value} :
    defaultsErrors v = .ok [] ↔ DefaultsConform v := by
  have hmapping : ∀ {node entries}, defaultsErrors (.object node .plain entries) = .ok [] ↔
      HasOnly ["max_value_length"] entries ∧
        ∀ length, Value.field? "max_value_length" entries = some length →
          ∃ n : Int, length = .int n ∧ 10 ≤ n := by
    intro node entries
    rw [defaultsErrors_mapping_eq, map_eq_ok_nil_iff, lists_unknownDefaults.eq_nil_iff,
      otherKeys_eq_nil_iff]
    refine and_congr_right fun _ => ?_
    cases Value.field? "max_value_length" entries with
    | none => simp [givenLengthErrors]
    | some length => simp [givenLengthErrors, lengthErrors_eq_nil_iff]
  cases v with
  | object node form entries =>
    cases form with
    | plain => simp [hmapping, DefaultsConform]
    | view => simp [defaultsErrors, DefaultsConform]
  | null => exact iff_of_true rfl (.inl rfl)
  | _ => simp [defaultsErrors, DefaultsConform]

theorem schemaErrors_eq (entries : Entries) : schemaErrors entries = do
    let top ← topLevelErrors entries
    if top.isEmpty then
      let defaults ← defaultsErrors (entryOr "defaults" entries)
      let checks ← checksErrors (entryOr "checks" entries)
      return versionErrors (entryOr "version" entries) ++ nameErrors (entryOr "name" entries)
        ++ defaults ++ checks
    else return top := by
  rw [schemaErrors]
  cases topLevelErrors entries with
  | error fault => rfl
  | ok top => cases top <;> rfl

theorem schemaErrors_eq_nil_iff {entries : Entries} :
    schemaErrors entries = .ok [] ↔ Conforms entries := by
  rw [schemaErrors_eq]
  constructor
  · intro h
    obtain ⟨top, htop, h⟩ := bind_eq_ok h
    cases top with
    | cons error rest => cases h
    | nil =>
      obtain ⟨defaults, hdefaults, h⟩ := bind_eq_ok h
      obtain ⟨checks, hchecks, h⟩ := bind_eq_ok h
      have hnil := Except.ok.inj h
      simp only [List.append_eq_nil_iff] at hnil
      obtain ⟨⟨⟨hversion, hname⟩, rfl⟩, rfl⟩ := hnil
      obtain ⟨n, hversion, hpos⟩ := versionErrors_eq_nil_iff.mp hversion
      obtain ⟨text, hname, hblank⟩ := nameErrors_eq_nil_iff.mp hname
      obtain ⟨node, given, hgiven, hconform⟩ := checksErrors_eq_nil_iff.mp hchecks
      constructor
      case fields => exact (topLevelErrors_eq_nil_iff.mp htop).2
      case version => exact ⟨n, (entryOr_eq_iff (by simp)).mp hversion, hpos⟩
      case name => exact ⟨text, (entryOr_eq_iff (by simp)).mp hname, hblank⟩
      case defaults =>
        exact (forall_field_iff (.inl rfl)).mp (defaultsErrors_eq_nil_iff.mp hdefaults)
      case checks => exact ⟨node, given, (entryOr_eq_iff (by simp)).mp hgiven, hconform⟩
  · intro h
    obtain ⟨n, hversion, hpos⟩ := h.version
    obtain ⟨text, hname, hblank⟩ := h.name
    obtain ⟨node, given, hgiven, hconform⟩ := h.checks
    have hrequired : ∀ name ∈ ["checks", "name", "version"],
        (Value.field? name entries).isSome := by
      simp [hversion, hname, hgiven]
    rw [topLevelErrors_eq_nil_iff.mpr ⟨hrequired, h.fields⟩,
      defaultsErrors_eq_nil_iff.mpr ((forall_field_iff (.inl rfl)).mpr h.defaults),
      checksErrors_eq_nil_iff.mpr ⟨node, given, (entryOr_eq_iff (by simp)).mpr hgiven, hconform⟩,
      versionErrors_eq_nil_iff.mpr ⟨n, (entryOr_eq_iff (by simp)).mpr hversion, hpos⟩,
      nameErrors_eq_nil_iff.mpr ⟨text, (entryOr_eq_iff (by simp)).mpr hname, hblank⟩]
    rfl

/-- **The validator accepts exactly the suites that are meant.** Where it answers, it finds nothing
wrong iff the suite conforms; and to a suite that conforms it does answer. -/
theorem valid_iff_conforms (entries : Entries) :
    (∀ errors, schemaErrors entries = .ok errors → (errors = [] ↔ Conforms entries)) ∧
      (Conforms entries → schemaErrors entries = .ok []) := by
  refine ⟨fun errors h => ?_, schemaErrors_eq_nil_iff.mpr⟩
  rw [← schemaErrors_eq_nil_iff, h, Except.ok.injEq]

end Suite

end Attest

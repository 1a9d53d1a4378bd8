import Attest.Proofs.Suite.Places
import Attest.Proofs.Suite.Totality

/-!
# Errors stay in their check

The checks of a suite are validated one after the other, and the only thing that one check leaves
for those after it are the ids that are taken. So what is found in a check is what would be found in
it if it were the only one, and what is wrong with one check neither hides nor adds nor changes an
error of another. There is one exception: the error of an id that an earlier check has.

Only an id that is a text, and not a blank one, can be taken. Two checks whose ids are no such texts
each have the error that says so, and none about the other.

## Main definitions

* `Suite.inCheck` — whether an error is in a check, as its place says
* `Suite.idOf?` — the id of a check that is a mapping
* `Suite.FoundIn` — what is found in a check where some ids are taken
* `Suite.withChecks` — a suite with other checks

## Main results

* `Suite.checkErrors_foundIn` — a single check
* `Suite.checksErrorsFrom_eq_ok` — the checks of a suite
* `Suite.errors_stay_in_their_check` — the errors of a suite
-/

namespace Attest

namespace Suite

/-! ### Places of checks -/

/-- The place of a check. -/
def checkPlace (index : Nat) : String := s!"checks[{index}]"

/-- The error is in the check with an index: its place begins with that of the check. -/
def inCheck (index : Nat) (e : SuiteError) : Bool :=
  match e.place with
  | .str s => (checkPlace index).toList.isPrefixOf s.toList
  | _ => false

theorem toList_checkPlace (index : Nat) :
    (checkPlace index).toList = "checks[".toList ++ (Nat.toDigits 10 index ++ [']']) := by
  have hindex : (toString index).toList = Nat.toDigits 10 index := Nat.toList_repr
  have hplace : checkPlace index = "checks[" ++ toString index ++ "]" := rfl
  rw [hplace, String.toList_append, String.toList_append, hindex, List.append_assoc]
  rfl

/-- The closing bracket ends an index. -/
theorem takeWhile_index (index : Nat) (more : List Char) :
    (Nat.toDigits 10 index ++ ']' :: more).takeWhile (· ≠ ']') = Nat.toDigits 10 index := by
  have hdigits : ∀ c ∈ Nat.toDigits 10 index, decide (c ≠ ']') = true := by
    rintro c hc
    refine decide_eq_true ?_
    rintro rfl
    cases Nat.isDigit_of_mem_toDigits (by decide) (by decide) hc
  rw [List.takeWhile_append_of_pos hdigits]
  simp

/-- The places of checks tell them apart. -/
theorem inCheck_below_iff {i j : Nat} {e : SuiteError} :
    inCheck i (e.below (checkPlace j)) = true ↔ i = j := by
  rw [SuiteError.below, inCheck, List.isPrefixOf_iff_prefix, String.toList_append]
  constructor
  · rintro ⟨more, hmore⟩
    simp only [toList_checkPlace, List.append_assoc, List.append_cancel_left_eq,
      List.singleton_append] at hmore
    have hdigits := congrArg (List.takeWhile (· ≠ ']')) hmore
    rw [takeWhile_index, takeWhile_index] at hdigits
    have hvalue := congrArg (fun ds => Nat.ofDigitChars 10 ds 0) hdigits
    simpa using hvalue
  · rintro rfl
    exact List.prefix_append ..

theorem inCheck_eq_false {e : SuiteError} {s : String} (hplace : e.place = .str s)
    (hs : s.toList.head? ≠ some 'c') (i : Nat) : inCheck i e = false := by
  rw [inCheck, hplace, ← Bool.not_eq_true, List.isPrefixOf_iff_prefix, toList_checkPlace]
  rintro ⟨more, hmore⟩
  rw [← hmore] at hs
  exact hs rfl

/-! ### Ids -/

/-- The id that a value is: a text, and not a blank one. -/
def idText? : Value → Option String
  | .str s => if isBlankText s then none else some s
  | _ => none

/-- The id of a check that is a mapping. -/
def idOf? : Value → Option String
  | .object _ .plain entries => idText? (entryOr "id" entries)
  | _ => none

/-- The error of an id that is taken, below the place of its check. -/
def duplicateId (id : String) : SuiteError :=
  (problem ".id" s!"Duplicate check id '{id}'").suggest "Check ids must be unique within a suite"

/-- The error of an id if it is taken, and else none. -/
def repeated (taken : List String) : Option String → List SuiteError
  | some id => if id ∈ taken then [duplicateId id] else []
  | none => []

theorem repeated_congr {taken taken' : List String} (h : ∀ id, id ∈ taken ↔ id ∈ taken')
    (id? : Option String) : repeated taken id? = repeated taken' id? := by
  cases id? with
  | none => rfl
  | some id => simp only [repeated, h]

/-- An id is reported because of itself, or because it is taken; afterwards it is. -/
theorem idErrors_eq (seen : List String) (v : Value) :
    (idErrors seen v "").1 = (idErrors [] v "").1 ++ repeated seen (idText? v) ∧
      ∀ id, id ∈ (idErrors seen v "").2 ↔ id ∈ seen ∨ idText? v = some id := by
  cases v with
  | str s =>
    by_cases hblank : isBlankText s = true
    · simp [idErrors, idText?, hblank, repeated]
    · by_cases hs : s ∈ seen
      · simp [idErrors, idText?, hblank, repeated, hs, duplicateId]
      · simp [idErrors, idText?, hblank, repeated, hs, eq_comm, or_comm]
  | _ => simp [idErrors, idText?, repeated]

/-! ### Checks -/

/-- What is found in a check where some ids are taken, with places below that of the check: what is
found in it where no id is taken, and the error of its id if that is taken. -/
def FoundIn (taken : List String) (check : Value) (errors : List SuiteError) : Prop :=
  ∃ first last own, checkErrors [] check "" = .ok (first ++ last, own) ∧
    errors = first ++ repeated taken (idOf? check) ++ last

theorem FoundIn.congr {taken taken' : List String} {check : Value} {errors : List SuiteError}
    (h : FoundIn taken check errors) (hids : ∀ id, id ∈ taken ↔ id ∈ taken') :
    FoundIn taken' check errors := by
  obtain ⟨first, last, own, hown, rfl⟩ := h
  exact ⟨first, last, own, hown, by rw [repeated_congr hids]⟩

/-- What is no mapping has one error, and no id. -/
theorem checkErrors_of_not_mapping {check : Value}
    (h : ∀ node entries, check ≠ .object node .plain entries) :
    idOf? check = none ∧ ∀ seen, checkErrors seen check ""
      = .ok ([(problem "" "Must be an object").got check], seen) := by
  cases check with
  | object node form entries =>
    cases form with
    | view => exact ⟨rfl, fun _ => rfl⟩
    | plain => exact absurd rfl (h node entries)
  | _ => exact ⟨rfl, fun _ => rfl⟩

/-- **What is found in a check** depends on the checks before it only by the ids that are taken. -/
theorem checkErrors_foundIn {seen taken : List String} {check : Value} {found : List SuiteError}
    (h : checkErrors seen check "" = .ok (found, taken)) :
    FoundIn seen check found ∧ ∀ id, id ∈ taken ↔ id ∈ seen ∨ idOf? check = some id := by
  by_cases hmapping : ∃ node entries, check = .object node .plain entries
  · obtain ⟨node, entries, rfl⟩ := hmapping
    obtain ⟨hids, htaken⟩ := idErrors_eq seen (entryOr "id" entries)
    rw [checkErrors_mapping_eq] at h
    obtain ⟨unknown, hunknown, hrest⟩ := bind_eq_ok h
    obtain ⟨steps, hsteps, hfound⟩ := bind_eq_ok hrest
    obtain ⟨rfl, rfl⟩ := Prod.mk.inj (Except.ok.inj hfound)
    refine ⟨⟨unknown ++ (idErrors [] (entryOr "id" entries) "").1,
      descriptionErrors (entryOr "description" entries) "" ++ sourceErrors entries "" ++ steps,
      (idErrors [] (entryOr "id" entries) "").2, ?_, ?_⟩, htaken⟩
    · rw [checkErrors_mapping_eq, hunknown, hsteps]
      simp only [bind, Except.bind, pure, Except.pure, List.append_assoc]
    · rw [hids]
      simp only [List.append_assoc, idOf?]
  · obtain ⟨hid, herrors⟩ := checkErrors_of_not_mapping fun node entries he =>
      hmapping ⟨node, entries, he⟩
    obtain ⟨rfl, rfl⟩ := Prod.mk.inj (Except.ok.inj (h.symm.trans (herrors seen)))
    refine ⟨⟨[(problem "" "Must be an object").got check], [], [], ?_, ?_⟩, by simp [hid]⟩
    · rw [herrors, List.append_nil]
    · rw [hid, repeated, List.append_nil, List.append_nil]

/-- **What is found in the checks of a suite**, check by check, in their order. By induction on the
checks; the ids that are taken before a check are those of the checks before it. -/
theorem checksErrorsFrom_eq_ok {seen : List String} {index : Nat} {checks : List Value}
    {errors : List SuiteError} (h : checksErrorsFrom seen index checks = .ok errors) :
    ∃ found : Nat → List SuiteError,
      errors = (List.range checks.length).flatMap (fun i =>
        (found i).map (.below (checkPlace (index + i)))) ∧
      ∀ before check after, checks = before ++ check :: after →
        FoundIn (seen ++ before.filterMap idOf?) check (found before.length) := by
  induction checks generalizing seen index errors with
  | nil =>
    obtain rfl := Except.ok.inj h
    exact ⟨fun _ => [], rfl, fun before check after h => by simp at h⟩
  | cons first rest ih =>
    rw [checksErrorsFrom] at h
    obtain ⟨⟨own, taken⟩, hown, hrest⟩ := bind_eq_ok h
    obtain ⟨others, hothers, herrors⟩ := bind_eq_ok hrest
    obtain rfl := Except.ok.inj herrors
    have hplace : s!"checks[{index}]" = checkPlace index ++ "" := (String.append_empty).symm
    rw [hplace, checkErrors_append] at hown
    obtain ⟨⟨found, _⟩, hfound, hbelow⟩ := map_eq_ok hown
    obtain ⟨rfl, rfl⟩ := Prod.mk.inj hbelow
    obtain ⟨hfound, htaken⟩ := checkErrors_foundIn hfound
    obtain ⟨later, rfl, hlater⟩ := ih hothers
    refine ⟨fun i => i.casesOn found later, ?_, ?_⟩
    · simp only [List.length_cons, List.range_succ_eq_map, List.flatMap_cons, List.flatMap_map,
        Nat.add_zero, Nat.succ_eq_add_one, Nat.add_assoc, Nat.add_comm 1]
      rfl
    · intro before check after hsplit
      cases before with
      | nil =>
        obtain ⟨rfl, rfl⟩ := List.cons.inj hsplit
        simpa using hfound
      | cons _ before =>
        obtain ⟨rfl, rfl⟩ := List.cons.inj hsplit
        refine (hlater before check after rfl).congr fun id => ?_
        rw [List.filterMap_cons, List.mem_append, List.mem_append, htaken, or_assoc]
        cases idOf? first <;> simp [eq_comm]

/-! ### Suites -/

/-- The same suite with other checks. -/
def withChecks (checks : List Value) (entries : Entries) : Entries :=
  Value.insert (.str "checks") (.list checks) entries

theorem field?_insert (name other : String) (v : Value) (entries : Entries) :
    Value.field? other (Value.insert (.str name) v entries)
      = if other = name then some v else Value.field? other entries := by
  induction entries with
  | nil =>
    simp only [Value.insert, Value.field?, Value.lookup, Value.sameKey_str_iff, Value.str.injEq]
    simp only [eq_comm]
  | cons entry rest ih =>
    obtain ⟨k, w⟩ := entry
    simp only [Value.field?] at ih ⊢
    rw [Value.insert]
    by_cases hk : Value.sameKey (.str name) k = true
    · obtain rfl := Value.sameKey_str_iff.mp hk
      rw [if_pos hk, Value.lookup, Value.lookup]
      simp only [Value.sameKey_str_iff, Value.str.injEq]
      by_cases hname : name = other <;> simp [hname, eq_comm]
    · rw [if_neg hk, Value.lookup, Value.lookup, ih]
      by_cases hother : Value.sameKey (.str other) k = true
      · have hne : other ≠ name := fun he => hk (he ▸ hother)
        rw [if_pos hother, if_pos hother, if_neg hne]
      · rw [if_neg hother, if_neg hother]

/-- Storing under a key that is there leaves the keys as they are. -/
theorem keys_insert (name : String) (v : Value) {entries : Entries}
    (h : (Value.field? name entries).isSome) :
    (Value.insert (.str name) v entries).map Prod.fst = entries.map Prod.fst := by
  induction entries with
  | nil => cases h
  | cons entry rest ih =>
    obtain ⟨k, w⟩ := entry
    rw [Value.field?, Value.lookup] at h
    rw [Value.insert]
    split at h
    · next hk => rw [if_pos hk, List.map_cons, List.map_cons]
    · next hk => rw [if_neg hk, List.map_cons, List.map_cons, ih h]

theorem hasOnly_iff {names : List String} {entries : Entries} :
    HasOnly names entries ↔ ∀ k ∈ entries.map Prod.fst, ∃ name ∈ names, k = .str name := by
  rw [List.forall_mem_map]
  rfl

theorem HasFields.withChecks {entries : Entries} (h : HasFields entries) (checks : List Value) :
    HasFields (withChecks checks entries) := by
  refine ⟨fun name hname => ?_, ?_⟩
  · rw [Suite.withChecks, field?_insert]
    split
    · rfl
    · exact h.1 name hname
  · rw [hasOnly_iff, Suite.withChecks, keys_insert _ _ (h.1 _ List.mem_cons_self), ← hasOnly_iff]
    exact h.2

/-- The errors of a suite with the fields that it needs: those outside of its checks, and those in
them. -/
theorem schemaErrors_eq_ok_iff {entries : Entries} (h : HasFields entries)
    {errors : List SuiteError} :
    schemaErrors entries = .ok errors ↔ ∃ defaults checks,
      defaultsErrors (entryOr "defaults" entries) = .ok defaults ∧
      checksErrors (entryOr "checks" entries) = .ok checks ∧
      errors = versionErrors (entryOr "version" entries) ++ nameErrors (entryOr "name" entries)
        ++ defaults ++ checks := by
  rw [schemaErrors_eq, topLevelErrors_eq_nil_iff.mpr h]
  simp only [bind, Except.bind, List.isEmpty_nil, if_true]
  constructor
  · intro hok
    obtain ⟨defaults, hdefaults, hrest⟩ := bind_eq_ok hok
    obtain ⟨checks, hchecks, herrors⟩ := bind_eq_ok hrest
    exact ⟨defaults, checks, hdefaults, hchecks, (Except.ok.inj herrors).symm⟩
  · rintro ⟨defaults, checks, hdefaults, hchecks, rfl⟩
    simp only [hdefaults, hchecks]
    rfl

/-! ### Errors outside of checks -/

/-- No error outside of the checks has a place that begins like that of a check. -/
def Outside (e : SuiteError) : Prop := ∀ i, inCheck i e = false

theorem outside_got {e : SuiteError} (h : Outside e) (v : Value) : Outside (e.got v) := by
  cases v <;> exact h

theorem outside_version (v : Value) : ∀ e ∈ versionErrors v, Outside e := by
  have hplace : ∀ message, Outside (problem "version" message) := fun _ =>
    inCheck_eq_false rfl (by decide)
  unfold versionErrors
  split
  · split
    · exact List.forall_mem_singleton.mpr (outside_got (hplace _) _)
    · nofun
  · exact List.forall_mem_singleton.mpr (show Outside (SuiteError.got _ _) from
      outside_got (hplace _) _)

theorem outside_name (v : Value) : ∀ e ∈ nameErrors v, Outside e := by
  have hplace : ∀ message, Outside (problem "name" message) := fun _ =>
    inCheck_eq_false rfl (by decide)
  unfold nameErrors
  split
  · split
    · exact List.forall_mem_singleton.mpr (hplace "Must be a non-empty string")
    · nofun
  · exact List.forall_mem_singleton.mpr (outside_got (hplace _) _)

theorem outside_unknownDefaults {keys : List Value} {errors : List SuiteError}
    (h : unknownDefaults keys = .ok errors) : ∀ e ∈ errors, Outside e := by
  induction keys generalizing errors with
  | nil =>
    obtain rfl := Except.ok.inj h
    nofun
  | cons key rest ih =>
    rw [unknownDefaults] at h
    obtain ⟨shown, _, h⟩ := bind_eq_ok h
    obtain ⟨others, hothers, h⟩ := bind_eq_ok h
    obtain rfl := Except.ok.inj h
    have hhead : ("defaults." ++ shown).toList.head? = some 'd' := by
      rw [String.toList_append]
      rfl
    refine List.forall_mem_cons.mpr ⟨inCheck_eq_false rfl ?_, ih hothers⟩
    rw [hhead]
    decide

theorem outside_defaults {v : Value} {errors : List SuiteError}
    (h : defaultsErrors v = .ok errors) : ∀ e ∈ errors, Outside e := by
  cases v with
  | object node form entries =>
    cases form with
    | view =>
      obtain rfl := Except.ok.inj h
      exact List.forall_mem_singleton.mpr (inCheck_eq_false rfl (by decide))
    | plain =>
      rw [defaultsErrors_mapping_eq] at h
      obtain ⟨unknown, hunknown, rfl⟩ := map_eq_ok h
      obtain ⟨sorted, -, hunknown⟩ := bind_eq_ok hunknown
      refine List.forall_mem_append.mpr ⟨outside_unknownDefaults hunknown, ?_⟩
      have hplace : ∀ message length,
          Outside ((problem "defaults.max_value_length" message).got length) := fun _ _ =>
        outside_got (inCheck_eq_false rfl (by decide)) _
      unfold givenLengthErrors
      split
      · unfold lengthErrors
        dsimp only
        split
        · split
          · exact List.forall_mem_singleton.mpr (hplace _ _)
          · nofun
        · exact List.forall_mem_singleton.mpr (hplace _ _)
      · nofun
  | null =>
    obtain rfl := Except.ok.inj h
    nofun
  | _ =>
    obtain rfl := Except.ok.inj h
    exact List.forall_mem_singleton.mpr (inCheck_eq_false rfl (by decide))

/-! ### The errors of a suite -/

/-- The errors of a suite that are in one of its checks are the part that was found there. -/
theorem filter_inCheck {general : List SuiteError} (hgeneral : ∀ e ∈ general, Outside e)
    (found : Nat → List SuiteError) {n i : Nat} (hi : i < n) :
    (general ++ (List.range n).flatMap fun j =>
        (found j).map (SuiteError.below (checkPlace j))).filter
        (inCheck i) = (found i).map (.below (checkPlace i)) := by
  have hpart : ∀ j, ((found j).map (.below (checkPlace j))).filter (inCheck i)
      = if j = i then (found i).map (.below (checkPlace i)) else [] := by
    intro j
    split
    · next hji =>
      subst hji
      refine List.filter_eq_self.mpr (List.forall_mem_map.mpr fun e _ => ?_)
      exact inCheck_below_iff.mpr rfl
    · next hji =>
      refine List.filter_eq_nil_iff.mpr (List.forall_mem_map.mpr fun e _ h => hji ?_)
      exact (inCheck_below_iff.mp h).symm
  have hnone : general.filter (inCheck i) = [] :=
    List.filter_eq_nil_iff.mpr fun e he => by simp [hgeneral e he i]
  rw [List.filter_append, hnone, List.nil_append, List.filter_flatMap]
  simp only [hpart]
  obtain ⟨k, rfl⟩ := Nat.exists_eq_add_of_lt hi
  rw [Nat.add_assoc, List.range_add, List.range_succ_eq_map]
  have hbefore : ((List.range i).flatMap fun j =>
      if j = i then (found i).map (SuiteError.below (checkPlace i)) else []) = [] :=
    List.flatMap_eq_nil_iff.mpr fun j hj => if_neg (List.mem_range.mp hj).ne
  simp [hbefore, List.flatMap_append, List.flatMap_map]

/-- What is found in the checks of a suite, if there are some. -/
theorem checksErrors_eq_ok {entries : Entries} {node : NodeId} {checks : List Value}
    (hchecks : Value.field? "checks" entries = some (.array node .list checks))
    (hne : checks ≠ []) :
    checksErrors (entryOr "checks" entries) = checksErrorsFrom [] 0 checks := by
  rw [entryOr, hchecks]
  cases checks with
  | nil => exact absurd rfl hne
  | cons check rest => rfl

/-- A suite with one check: to the errors outside of its checks come those of the check. -/
theorem schemaErrors_single {entries : Entries} (h : HasFields entries) {defaults : List SuiteError}
    (hdefaults : defaultsErrors (entryOr "defaults" entries) = .ok defaults) {check : Value}
    {found : List SuiteError} {taken : List String}
    (hcheck : checkErrors [] check "" = .ok (found, taken)) :
    schemaErrors (withChecks [check] entries)
      = .ok (versionErrors (entryOr "version" entries) ++ nameErrors (entryOr "name" entries)
        ++ defaults ++ found.map (.below (checkPlace 0))) := by
  have hentry : ∀ name, name ≠ "checks" →
      entryOr name (withChecks [check] entries) = entryOr name entries := fun name hname => by
    rw [entryOr, withChecks, field?_insert, if_neg hname, entryOr]
  have hchecks : Value.field? "checks" (withChecks [check] entries) = some (.list [check]) := by
    rw [withChecks, field?_insert, if_pos rfl]
  refine (schemaErrors_eq_ok_iff (h.withChecks [check])).mpr
    ⟨defaults, found.map (.below (checkPlace 0)), ?_, ?_, ?_⟩
  · rw [hentry _ (by decide), hdefaults]
  · have hplace : s!"checks[{0}]" = checkPlace 0 ++ "" := rfl
    rw [checksErrors_eq_ok hchecks (List.cons_ne_nil check []), checksErrorsFrom, hplace,
      checkErrors_append, hcheck]
    simp [Except.map, bind, Except.bind, checksErrorsFrom, pure, Except.pure]
  · rw [hentry _ (by decide), hentry _ (by decide)]

/-- **Errors stay in their check.** A suite that has checks, and the fields that it needs and no
others, has errors outside of its checks, and then those in its checks, check by check. In a check
are the errors that it has as the only check of the suite, at its place; and the error of its id, if
this is a text, not a blank one, that a check before it has. -/
theorem errors_stay_in_their_check {entries : Entries} (hfields : HasFields entries) {node : NodeId}
    {checks : List Value}
    (hchecks : Value.field? "checks" entries = some (.array node .list checks)) (hne : checks ≠ [])
    {errors : List SuiteError} (herrors : schemaErrors entries = .ok errors) :
    ∃ general, (∀ e ∈ general, Outside e) ∧
      errors = general ++ (List.range checks.length).flatMap (fun i => errors.filter (inCheck i)) ∧
      ∀ before check after, checks = before ++ check :: after →
        ∃ alone first last, schemaErrors (withChecks [check] entries) = .ok alone ∧
          alone = general ++ alone.filter (inCheck 0) ∧
          alone.filter (inCheck 0) = (first ++ last).map (.below (checkPlace 0)) ∧
          errors.filter (inCheck before.length)
            = (first ++ repeated (before.filterMap idOf?) (idOf? check) ++ last).map
                (.below (checkPlace before.length)) := by
  obtain ⟨defaults, inside, hdefaults, hinside, rfl⟩ := (schemaErrors_eq_ok_iff hfields).mp herrors
  rw [checksErrors_eq_ok hchecks hne] at hinside
  obtain ⟨found, rfl, hfound⟩ := checksErrorsFrom_eq_ok hinside
  simp only [Nat.zero_add, List.nil_append] at hfound ⊢
  have hgeneral : ∀ e ∈ versionErrors (entryOr "version" entries)
      ++ nameErrors (entryOr "name" entries) ++ defaults, Outside e :=
    List.forall_mem_append.mpr ⟨List.forall_mem_append.mpr ⟨outside_version _, outside_name _⟩,
      outside_defaults hdefaults⟩
  refine ⟨_, hgeneral, ?_, fun before check after hsplit => ?_⟩
  · refine congrArg _ (List.flatMap_congr fun i hi => ?_)
    rw [filter_inCheck hgeneral found (List.mem_range.mp hi)]
  · obtain ⟨first, last, own, hown, hparts⟩ := hfound before check after hsplit
    have hlength : before.length < checks.length := by simp [hsplit]
    have halone := filter_inCheck hgeneral (fun _ => first ++ last) Nat.zero_lt_one
    simp only [List.range_one, List.flatMap_cons, List.flatMap_nil, List.append_nil] at halone
    refine ⟨_, first, last, schemaErrors_single hfields hdefaults hown, ?_, halone, ?_⟩
    · rw [halone]
    · rw [filter_inCheck hgeneral found hlength, hparts]

/-- A check that is meant but for its id. -/
def checkWithId (id : String) : Value :=
  .record [("id", .str id), ("document", .int 1), ("steps", .list [.str "is_null"])]

/-- A suite with the given checks. -/
def suiteOf (checks : List Value) : Entries :=
  [(.str "version", .int 1), (.str "name", .str "n"), (.str "checks", .list checks)]

theorem hasFields_suiteOf (checks : List Value) : HasFields (suiteOf checks) := by
  refine ⟨?_, by simp [HasOnly, suiteOf]⟩
  simp only [List.forall_mem_cons]
  exact ⟨rfl, rfl, rfl, List.forall_mem_nil _⟩

/-- The third check has the id of the first one, and the second one is no mapping. -/
theorem errors_stay_in_their_check_of_taken_id :
    HasFields (suiteOf [checkWithId "a", .null, checkWithId "a"]) ∧
      ∃ errors alone first last,
        schemaErrors (suiteOf [checkWithId "a", .null, checkWithId "a"]) = .ok errors ∧
        schemaErrors (suiteOf [checkWithId "a"]) = .ok alone ∧
        alone.filter (inCheck 0) = (first ++ last).map (.below (checkPlace 0)) ∧
        errors.filter (inCheck 2)
          = (first ++ [duplicateId "a"] ++ last).map (.below (checkPlace 2)) := by
  have hfields := hasFields_suiteOf [checkWithId "a", .null, checkWithId "a"]
  have herrors : ∃ errors,
      schemaErrors (suiteOf [checkWithId "a", .null, checkWithId "a"]) = .ok errors := ⟨_, rfl⟩
  obtain ⟨errors, herrors⟩ := herrors
  obtain ⟨general, -, -, hlocal⟩ :=
    errors_stay_in_their_check hfields rfl (List.cons_ne_nil _ _) herrors
  obtain ⟨alone, first, last, halone, -, hfirst, hthird⟩ :=
    hlocal [checkWithId "a", .null] (checkWithId "a") [] rfl
  exact ⟨hfields, errors, alone, first, last, herrors, halone, hfirst, hthird⟩

/-- **Blank ids are not reported as taken.** Two checks with a blank id have the error that each
would have alone, and the second one no further error. -/
theorem blank_ids_not_repeated :
    HasFields (suiteOf [checkWithId "", checkWithId ""]) ∧
      ∃ errors alone, schemaErrors (suiteOf [checkWithId "", checkWithId ""]) = .ok errors ∧
        schemaErrors (suiteOf [checkWithId ""]) = .ok alone ∧
        ¬ ∃ first last, alone.filter (inCheck 0) = (first ++ last).map (.below (checkPlace 0)) ∧
          errors.filter (inCheck 1)
            = (first ++ [duplicateId ""] ++ last).map (.below (checkPlace 1)) := by
  refine ⟨hasFields_suiteOf _, _, _, rfl, rfl, ?_⟩
  rintro ⟨first, last, halone, herrors⟩
  have hone := congrArg List.length halone
  have htwo := congrArg List.length herrors
  simp only [List.length_map, List.length_append, List.length_singleton] at hone htwo
  have hlength : 1 = first.length + last.length := hone
  have hlonger : 1 = first.length + 1 + last.length := htwo
  omega

end Suite

end Attest

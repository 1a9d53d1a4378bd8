import Attest.Proofs.Suite.Conformity

/-!
# Places of errors

Every error in a check is reported at a place below that of the check. What is found in a check does
not depend on where the check stands: at another place the same errors are found, and only the
beginnings of their places differ. This is shown for every part of a check, from the arguments of a
step upwards.

The functions that find errors get the place as a text and put further texts behind it. So the
statement is an equation: what is found at a place `p ++ q` is what is found at `q`, put below `p`.

## Main definitions

* `SuiteError.below` — an error with its place below another one

## Main results

* `Suite.stepErrors_append`, `stepsErrors_append` — steps
* `Suite.checkErrors_append` — a check
-/

namespace Attest

/-- The text of the place of an error; a place that is no text has none. -/
def SuiteError.placeText (e : SuiteError) : String :=
  match e.place with
  | .str s => s
  | _ => ""

/-- The same error, with its place below another one. -/
def SuiteError.below (path : String) (e : SuiteError) : SuiteError :=
  { e with place := .str (path ++ e.placeText) }

namespace Suite

variable {p q : String}

@[simp] theorem below_problem (p q message : String) :
    (problem q message).below p = problem (p ++ q) message := rfl

@[simp] theorem below_got (p : String) (e : SuiteError) (v : Value) :
    (e.got v).below p = (e.below p).got v := by
  cases v <;> rfl

@[simp] theorem below_suggest (p : String) (e : SuiteError) (text : String) :
    (e.suggest text).below p = (e.below p).suggest text := rfl

@[simp] theorem below_below (p q : String) (e : SuiteError) :
    (e.below q).below p = e.below (p ++ q) := by
  simp [SuiteError.below, SuiteError.placeText, String.append_assoc]

/-- An error that is found unless a test is passed, which does not depend on the place. -/
theorem map_unless {test : Except Fault Bool} {e found : SuiteError} (h : found = e.below p) :
    (do return if ← test then [] else [found] : Findings)
      = (do return if ← test then [] else [e] : Findings).map (List.map (.below p)) := by
  cases test with
  | error fault => rfl
  | ok passed => cases passed <;> simp [h, bind, Except.bind, pure, Except.pure, Except.map]

/-! ### Arguments -/

theorem surplusErrors_append (first : String) (keys : List Value) :
    surplusErrors first (p ++ q) keys = (surplusErrors first q keys).map (List.map (.below p)) := by
  cases keys with
  | nil => rfl
  | cons key rest =>
    rw [surplusErrors, surplusErrors]
    cases Value.sortKeys (key :: rest) with
    | error fault => rfl
    | ok sorted =>
      cases h : joinKeys sorted <;>
        simp [h, bind, Except.bind, pure, Except.pure, Except.map]

theorem givenErrors_append (first : String) (v : Value) :
    givenErrors first (p ++ q) v = (givenErrors first q v).map (.below p) := by
  cases v <;> simp [givenErrors]

theorem absentErrors_append (required : Bool) (value : Option Value) :
    absentErrors required (p ++ q) value = (absentErrors required q value).map (.below p) := by
  unfold absentErrors
  split <;> simp

theorem pairErrors_append (first : String) (required : Bool) (v : Value) :
    pairErrors first required v (p ++ q)
      = (pairErrors first required v q).map (List.map (.below p)) := by
  cases v with
  | array node form items =>
    cases form with
    | tuple => simp [pairErrors, Except.map]
    | list =>
      simp only [pairErrors]
      by_cases hlength : (decide (items.length < if required then 2 else 1)
        || decide (2 < items.length)) = true
      · rw [if_pos hlength, if_pos hlength]
        simp [Except.map]
      · rw [if_neg hlength, if_neg hlength]
        cases items with
        | nil => rfl
        | cons x rest => cases x <;> simp [Except.map]
  | object node form entries =>
    cases form with
    | view => simp [pairErrors, Except.map]
    | plain =>
      rw [pairErrors_mapping_eq, pairErrors_mapping_eq, surplusErrors_append, givenErrors_append,
        absentErrors_append]
      cases surplusErrors first q (otherKeys [first, "value"] entries) <;> simp [Except.map]
  | str s => cases required <;> simp [pairErrors, Except.map]
  | _ => simp [pairErrors, Except.map]

theorem argumentErrors_append (op : Op) (v : Value) :
    argumentErrors op v (p ++ q) = (argumentErrors op v q).map (List.map (.below p)) := by
  unfold argumentErrors
  cases op.form with
  | nothing | anything => rfl
  | count => cases v <;> simp [Except.map, apply_ite (List.map _)]
  | text => cases v <;> simp [Except.map]
  | kind => exact map_unless (by simp)
  | kinds =>
    rcases v with _ | _ | _ | _ | _ | ⟨_, _ | _, _ | _⟩
    case array.list.cons => exact map_unless (by simp)
    all_goals simp [Except.map, pure, Except.pure]
  | criteria => rcases v with _ | _ | _ | _ | _ | _ | ⟨_, _ | _, _ | _⟩ <;> simp [Except.map]
  | pair => exact pairErrors_append ..

/-! ### Steps -/

theorem opErrors_append (op : Op) (argument : Option Value) :
    opErrors op argument (p ++ q) = (opErrors op argument q).map (List.map (.below p)) := by
  unfold opErrors
  split
  · split <;> simp [Except.map]
  · cases argument with
    | none => simp [Except.map]
    | some v => exact argumentErrors_append ..

/-- Errors that were found with something else, put below a place. -/
def moved {α : Type} (p : String) (found : α × List SuiteError) : α × List SuiteError :=
  (found.1, found.2.map (.below p))

theorem entryErrors_append (name : Value) (argument : Option Value) :
    entryErrors name argument (p ++ q) = (entryErrors name argument q).map (moved p) := by
  unfold entryErrors
  cases opOf? name with
  | none => cases name.label <;> simp [Except.map, moved]
  | some op =>
    simp only [opErrors_append]
    cases opErrors op argument q <;> simp [Except.map, moved]

/-- **What is found in a step** does not depend on its place. -/
theorem stepErrors_append (step : Value) :
    stepErrors step (p ++ q) = (stepErrors step q).map (moved p) := by
  cases h : entryOf? step with
  | none => simp [stepErrors, h, Except.map, moved]
  | some entry =>
    rw [stepErrors_of_entry h, stepErrors_of_entry h, entryErrors_append]

theorem placeErrors_append (op : Op) (unopened isLast : Bool) :
    placeErrors op unopened isLast (p ++ q)
      = (placeErrors op unopened isLast q).map (.below p) := by
  unfold placeErrors
  split <;> split <;> simp

theorem place_append (index : Nat) : s!"{p ++ q}[{index}]" = p ++ s!"{q}[{index}]" := by
  simp [toString, String.append_assoc]

theorem stepsErrorsFrom_append (index depth : Nat) (steps : List Value) :
    stepsErrorsFrom (p ++ q) index depth steps
      = (stepsErrorsFrom q index depth steps).map fun found =>
          (found.1.map (.below p), found.2) := by
  induction steps generalizing index depth with
  | nil => rfl
  | cons step rest ih =>
    have hstep : stepErrors step s!"{p ++ q}[{index}]"
        = (stepErrors step s!"{q}[{index}]").map (moved p) := by
      rw [place_append, stepErrors_append]
    cases h : stepErrors step s!"{q}[{index}]" with
    | error fault =>
      rw [h] at hstep
      rw [stepsErrorsFrom_of_error h, stepsErrorsFrom_of_error hstep]
      rfl
    | ok found =>
      obtain ⟨found, errors⟩ := found
      rw [h] at hstep
      cases found with
      | none =>
        rw [stepsErrorsFrom_of_none h, stepsErrorsFrom_of_none hstep, ih]
        cases stepsErrorsFrom q (index + 1) depth rest with
        | error fault => rfl
        | ok found => simp [bind, Except.bind, pure, Except.pure, Except.map]
      | some op =>
        rw [stepsErrorsFrom_of_op h, stepsErrorsFrom_of_op hstep, ih, place_append,
          placeErrors_append]
        cases stepsErrorsFrom q (index + 1) (blockDepth depth op).1 rest with
        | error fault => rfl
        | ok found => simp [bind, Except.bind, pure, Except.pure, Except.map]

/-- **What is found in the steps of a check** does not depend on their place. -/
theorem stepsErrors_append (steps : List Value) :
    stepsErrors steps (p ++ q) = (stepsErrors steps q).map (List.map (.below p)) := by
  rw [stepsErrors, stepsErrors, stepsErrorsFrom_append]
  cases stepsErrorsFrom q 0 0 steps with
  | error fault => rfl
  | ok found =>
    obtain ⟨errors, depth⟩ := found
    simp only [bind, Except.bind, pure, Except.pure, Except.map]
    split <;> simp

theorem stepsFieldErrors_append (v : Value) :
    stepsFieldErrors (p ++ q) v = (stepsFieldErrors q v).map (List.map (.below p)) := by
  cases v with
  | array node form items =>
    cases form with
    | tuple => simp [stepsFieldErrors, Except.map, String.append_assoc]
    | list =>
      cases items with
      | nil => simp [stepsFieldErrors, Except.map, String.append_assoc]
      | cons step rest =>
        rw [stepsFieldErrors, stepsFieldErrors, String.append_assoc, stepsErrors_append]
  | _ => simp [stepsFieldErrors, Except.map, String.append_assoc]

/-! ### Fields of a check -/

theorem unknownCheckFields_append (keys : List Value) :
    unknownCheckFields (p ++ q) keys
      = (unknownCheckFields q keys).map (List.map (.below p)) := by
  induction keys with
  | nil => rfl
  | cons key rest ih =>
    rw [unknownCheckFields, unknownCheckFields, ih]
    cases key.label with
    | error fault => rfl
    | ok shown =>
      cases unknownCheckFields q rest <;>
        simp [bind, Except.bind, pure, Except.pure, Except.map, String.append_assoc]

theorem idErrors_append (seen : List String) (id : Value) :
    idErrors seen id (p ++ q)
      = ((idErrors seen id q).1.map (.below p), (idErrors seen id q).2) := by
  cases id with
  | str s =>
    simp only [idErrors]
    split
    · simp [String.append_assoc]
    · split <;> simp [String.append_assoc]
  | _ => simp [idErrors, String.append_assoc]

theorem descriptionErrors_append (v : Value) :
    descriptionErrors v (p ++ q) = (descriptionErrors v q).map (.below p) := by
  cases v <;> simp [descriptionErrors, String.append_assoc]

theorem textFieldErrors_append (name : String) (entries : Entries) :
    textFieldErrors name entries (p ++ q) = (textFieldErrors name entries q).map (.below p) := by
  unfold textFieldErrors
  split <;> simp [String.append_assoc]

theorem sourceErrors_append (entries : Entries) :
    sourceErrors entries (p ++ q) = (sourceErrors entries q).map (.below p) := by
  simp only [sourceErrors, textFieldErrors_append, List.map_append]
  split <;> simp

/-- **What is found in a check** does not depend on its place. -/
theorem checkErrors_append (seen : List String) (check : Value) :
    checkErrors seen check (p ++ q) = (checkErrors seen check q).map fun found =>
      (found.1.map (.below p), found.2) := by
  cases check with
  | object node form entries =>
    cases form with
    | view => simp [checkErrors, Except.map]
    | plain =>
      rw [checkErrors_mapping_eq, checkErrors_mapping_eq, stepsFieldErrors_append, idErrors_append,
        descriptionErrors_append, sourceErrors_append]
      cases Value.sortKeys (otherKeys checkFields entries) with
      | error fault => rfl
      | ok sorted =>
        simp only [bind, Except.bind, pure, Except.pure, unknownCheckFields_append]
        cases unknownCheckFields q sorted with
        | error fault => rfl
        | ok unknown =>
          cases stepsFieldErrors q (entryOr "steps" entries) <;> simp [Except.map]
  | _ => simp [checkErrors, Except.map]

end Suite

end Attest

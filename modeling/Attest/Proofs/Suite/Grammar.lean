import Attest.Proofs.Suite.Accepted
import Attest.Proofs.Value.Sorting

/-!
# The grammar of steps

What a suite may say is stated here without reference to the validator, from the arguments of an
operation up to the steps of a check, and the validator is proved to find nothing wrong with exactly
that.

The validator goes through the steps with a counter of open blocks. What is meant is said without
it, by counting: before every step that belongs to a block, more blocks were opened than closed,
and in the end as many were closed as were opened. The statement about the counter is therefore
made for every number of blocks that are open at the start.

## Main definitions

* `Suite.HasOnly` — mappings with no other keys than some
* `Suite.NamesKind`, `Suite.PairFits`, `Suite.ArgumentFits` — the forms of arguments
* `Suite.StepIs` — a step that stands for an operation
* `Suite.Bracketed`, `Suite.FinalizesLast` — the order of operations
* `Suite.StepsConform` — the steps of a check

## Main results

* `Suite.argumentErrors_eq_nil_iff`, `stepErrors_eq_nil_iff` — a single step
* `Suite.stepsErrors_eq_nil_iff` — the steps of a check
-/

namespace Attest

/-! ### Names -/

theorem Op.ofName?_name (op : Op) : Op.ofName? op.name = some op := by
  cases op <;> decide

theorem Op.ofName?_eq_some_iff {name : String} {op : Op} :
    Op.ofName? name = some op ↔ name = op.name := by
  refine ⟨fun h => ?_, fun h => h ▸ op.ofName?_name⟩
  exact (beq_iff_eq.mp (List.find?_some (p := fun op : Op => op.name == name) h)).symm

theorem Kind.ofName?_name (kind : Kind) : Kind.ofName? kind.name = some kind := by
  cases kind <;> decide

theorem Kind.ofName?_isSome_iff {name : String} :
    (Kind.ofName? name).isSome ↔ ∃ kind : Kind, name = kind.name := by
  rw [Option.isSome_iff_exists]
  refine exists_congr fun kind => ⟨fun h => ?_, fun h => h ▸ kind.ofName?_name⟩
  exact (beq_iff_eq.mp (List.find?_some (p := fun kind : Kind => kind.name == name) h)).symm

theorem opOf?_eq_some_iff {name : Value} {op : Op} : opOf? name = some op ↔ name = .str op.name := by
  cases name with
  | str s => simp [opOf?, Op.ofName?_eq_some_iff]
  | _ => simp [opOf?]

/-- The step belongs to a block that is open. -/
def Op.NeedsBlock (op : Op) : Prop := op = .orElse ∨ op = .end_

namespace Suite

/-! ### Mappings -/

/-- A mapping with no other keys than the given names. -/
def HasOnly (names : List String) (entries : Entries) : Prop :=
  ∀ e ∈ entries, ∃ name ∈ names, e.1 = .str name

theorem otherKeys_eq_nil_iff {names : List String} {entries : Entries} :
    otherKeys names entries = [] ↔ HasOnly names entries := by
  rw [otherKeys, List.filter_eq_nil_iff, List.forall_mem_map, HasOnly]
  refine forall₂_congr fun e _ => ?_
  obtain ⟨key, v⟩ := e
  cases key with
  | str s => simp
  | _ => simp

/-- A field holds a value other than null iff it is there with that value. -/
theorem entryOr_eq_iff {name : String} {entries : Entries} {v : Value} (hv : v ≠ .null) :
    entryOr name entries = v ↔ Value.field? name entries = some v := by
  unfold entryOr
  cases Value.field? name entries with
  | none => simpa using hv.symm
  | some w => simp

/-- What holds of null holds of a field iff it does where the field is there. -/
theorem forall_field_iff {name : String} {entries : Entries} {p : Value → Prop} (hp : p .null) :
    p (entryOr name entries) ↔ ∀ v, Value.field? name entries = some v → p v := by
  unfold entryOr
  cases Value.field? name entries with
  | none => simpa using hp
  | some w => simp

/-! ### Arguments -/

/-- The name of a kind. -/
def NamesKind (v : Value) : Prop := ∃ kind : Kind, v = .str kind.name

/-- A key or path, with a value unless that is left out where it may be: in a list, in a mapping,
or the path alone. -/
inductive PairFits (first : String) : (valueRequired : Bool) → Value → Prop where
  | both {required : Bool} {node : NodeId} {s : String} {w : Value} :
      PairFits first required (.array node .list [.str s, w])
  | single {node : NodeId} {s : String} : PairFits first false (.array node .list [.str s])
  | named {required : Bool} {node : NodeId} {entries : Entries} {s : String} :
      HasOnly [first, "value"] entries → Value.field? first entries = some (.str s) →
      (required = true → ∃ w, Value.field? "value" entries = some w) →
        PairFits first required (.object node .plain entries)
  | alone {s : String} : PairFits first false (.str s)

/-- An argument has the form that its operation asks for. -/
def ArgumentFits (op : Op) (v : Value) : Prop :=
  match op.form with
  | .nothing => v = .null
  | .count => ∃ n : Int, v = .int n ∧ 0 ≤ n
  | .text => ∃ s, v = .str s
  | .kind => NamesKind v
  | .kinds => ∃ node items, v = .array node .list items ∧ items ≠ [] ∧
      ∀ item ∈ items, NamesKind item
  | .criteria => ∃ node entries, v = .object node .plain entries ∧ entries ≠ []
  | .pair => PairFits (if op = .containing then "key" else "path") (op = .containing) v
  | .anything => True

theorem namesKind_eq_true_iff {v : Value} : namesKind v = .ok true ↔ NamesKind v := by
  cases v with
  | str s => simp [namesKind, unsought?, Value.unhashable?, Kind.ofName?_isSome_iff, NamesKind]
  | _ =>
    simp only [namesKind, NamesKind, reduceCtorEq, exists_false, iff_false]
    split <;> simp

theorem allNameKinds_eq_true_iff {items : List Value} :
    allNameKinds items = .ok true ↔ ∀ item ∈ items, NamesKind item := by
  induction items with
  | nil => simp [allNameKinds]
  | cons item rest ih =>
    rw [List.forall_mem_cons, ← namesKind_eq_true_iff, ← ih, allNameKinds]
    cases namesKind item with
    | error fault => simp [bind, Except.bind]
    | ok named => cases named <;> simp [bind, Except.bind, pure, Except.pure]

theorem pairErrors_list_iff {first path : String} {required : Bool} {node : NodeId}
    {items : List Value} : pairErrors first required (.array node .list items) path = .ok [] ↔
      PairFits first required (.array node .list items) := by
  constructor
  · intro h
    rcases pairErrors_list h with ⟨s, w, rfl⟩ | ⟨rfl, s, rfl⟩
    · exact .both
    · exact .single
  · intro h
    cases h with
    | both => cases required <;> rfl
    | single => rfl

/-- The errors of a pair in a mapping for keys that do not belong there. -/
def surplusErrors (first path : String) : List Value → Findings
  | [] => .ok []
  | key :: rest => do
    let names ← joinKeys (← Value.sortKeys (key :: rest))
    return [(problem path s!"Unknown argument(s): {names}").suggest
      s!"Valid arguments: {first}, value"]

/-- Those for a key or path that is no text. -/
def givenErrors (first path : String) : Value → List SuiteError
  | .str _ => []
  | v => [(problem path s!"'{first}' must be a string").got v]

/-- Those for a value that was left out. -/
def absentErrors (required : Bool) (path : String) (value : Option Value) : List SuiteError :=
  if required && value.isNone then [problem path "'value' is required"] else []

theorem pairErrors_mapping_eq (first path : String) (required : Bool) (node : NodeId)
    (entries : Entries) : pairErrors first required (.object node .plain entries) path
      = (surplusErrors first path (otherKeys [first, "value"] entries)).map fun surplus =>
          surplus ++ givenErrors first path (entryOr first entries)
            ++ absentErrors required path (Value.field? "value" entries) := by
  simp only [pairErrors]
  cases hkeys : otherKeys [first, "value"] entries with
  | nil => rfl
  | cons key rest =>
    rw [surplusErrors]
    cases Value.sortKeys (key :: rest) with
    | error fault => rfl
    | ok sorted =>
      cases hnames : joinKeys sorted with
      | error fault => simp only [bind, Except.bind, hnames]; rfl
      | ok names => simp only [bind, Except.bind, hnames]; rfl

theorem map_eq_ok_nil_iff {x : Findings} {more : List SuiteError} :
    x.map (· ++ more) = .ok [] ↔ x = .ok [] ∧ more = [] := by
  cases x <;> simp [Except.map]

theorem surplusErrors_eq_nil_iff {first path : String} {keys : List Value} :
    surplusErrors first path keys = .ok [] ↔ keys = [] := by
  cases keys with
  | nil => simp [surplusErrors]
  | cons key rest =>
    refine iff_of_false (fun h => ?_) (by simp)
    obtain ⟨_, _, h⟩ := bind_eq_ok h
    obtain ⟨_, _, h⟩ := bind_eq_ok h
    cases h

theorem givenErrors_eq_nil_iff {first path : String} {v : Value} :
    givenErrors first path v = [] ↔ ∃ s, v = .str s := by
  cases v <;> simp [givenErrors]

theorem pairErrors_mapping_iff {first path : String} {required : Bool} {node : NodeId}
    {entries : Entries} : pairErrors first required (.object node .plain entries) path = .ok [] ↔
      PairFits first required (.object node .plain entries) := by
  have hgiven : givenErrors first path (entryOr first entries) = [] ↔
      ∃ s, Value.field? first entries = some (.str s) := by
    simp [givenErrors_eq_nil_iff, entryOr_eq_iff]
  have habsent : absentErrors required path (Value.field? "value" entries) = [] ↔
      (required = true → ∃ w, Value.field? "value" entries = some w) := by
    cases Value.field? "value" entries <;> cases required <;> simp [absentErrors]
  simp only [pairErrors_mapping_eq, List.append_assoc, map_eq_ok_nil_iff,
    surplusErrors_eq_nil_iff, List.append_eq_nil_iff, hgiven, habsent, otherKeys_eq_nil_iff]
  constructor
  · rintro ⟨honly, ⟨s, hs⟩, hvalue⟩
    exact .named honly hs hvalue
  · rintro ⟨⟩
    exact ⟨‹_›, ⟨_, ‹_›⟩, ‹_›⟩

theorem pairErrors_eq_nil_iff {first path : String} {required : Bool} {v : Value} :
    pairErrors first required v path = .ok [] ↔ PairFits first required v := by
  cases v with
  | array node form items =>
    cases form with
    | list => exact pairErrors_list_iff
    | tuple => exact iff_of_false (by simp [pairErrors]) (by rintro ⟨⟩)
  | object node form entries =>
    cases form with
    | plain => exact pairErrors_mapping_iff
    | view => exact iff_of_false (by simp [pairErrors]) (by rintro ⟨⟩)
  | str s =>
    cases required with
    | true => exact iff_of_false (by simp [pairErrors]) (by rintro ⟨⟩)
    | false => exact iff_of_true rfl .alone
  | _ => exact iff_of_false (by simp [pairErrors]) (by rintro ⟨⟩)

/-- An error is reported unless a test is passed. -/
theorem unless_eq_nil_iff {test : Except Fault Bool} {error : SuiteError} :
    (do return if ← test then [] else [error] : Findings) = .ok [] ↔ test = .ok true := by
  cases test with
  | error fault => simp [bind, Except.bind]
  | ok passed => cases passed <;> simp [bind, Except.bind, pure, Except.pure]

/-- **Nothing is wrong with an argument iff it has the form that is asked for.** -/
theorem argumentErrors_eq_nil_iff {op : Op} {v : Value} {path : String}
    (hform : op.form ≠ .nothing) : argumentErrors op v path = .ok [] ↔ ArgumentFits op v := by
  unfold argumentErrors ArgumentFits
  cases h : op.form with
  | nothing => exact absurd h hform
  | count =>
    cases v with
    | int n => simp [apply_ite]
    | _ => simp
  | text => cases v <;> simp
  | kind =>
    rw [← namesKind_eq_true_iff]
    exact unless_eq_nil_iff
  | kinds =>
    cases v with
    | array node form items =>
      cases form with
      | tuple => simp [pure, Except.pure]
      | list =>
        cases items with
        | nil => simp [pure, Except.pure]
        | cons item rest =>
          have hfits : (∃ node' items, Value.array node .list (item :: rest)
              = .array node' .list items ∧ items ≠ [] ∧ ∀ item ∈ items, NamesKind item) ↔
                allNameKinds (item :: rest) = .ok true := by
            rw [allNameKinds_eq_true_iff]
            simp
          rw [hfits]
          exact unless_eq_nil_iff
    | _ => simp [pure, Except.pure]
  | criteria =>
    rcases v with _ | _ | _ | _ | _ | _ | ⟨_, _ | _, _ | _⟩ <;> simp
  | pair => exact pairErrors_eq_nil_iff
  | anything => exact iff_of_true rfl trivial

/-! ### A step -/

/-- A step is the name of an operation without argument, or a mapping from the name of an operation
to its argument. -/
inductive StepIs : Value → Op → Prop where
  | bare {op : Op} : op.form = .nothing → StepIs (.str op.name) op
  | given {op : Op} {node : NodeId} {v : Value} : ArgumentFits op v →
      StepIs (.object node .plain [(.str op.name, v)]) op

theorem opErrors_bare_iff {op : Op} {path : String} :
    opErrors op none path = .ok [] ↔ op.form = .nothing := by
  unfold opErrors
  split <;> simp_all

theorem opErrors_given_iff {op : Op} {v : Value} {path : String} :
    opErrors op (some v) path = .ok [] ↔ ArgumentFits op v := by
  unfold opErrors
  split
  · next h =>
    rw [ArgumentFits, h]
    cases v <;> simp
  · next h => exact argumentErrors_eq_nil_iff h

/-- The errors of a step with a name. -/
def entryErrors (name : Value) (argument : Option Value) (path : String) :
    Except Fault (Option Op × List SuiteError) :=
  match opOf? name with
  | some op => (opErrors op argument path).map fun errors => (some op, errors)
  | none => name.label.map fun shown =>
    (none, [(problem path s!"Unknown op '{shown}'").suggest
      ("Valid ops: " ++ ", ".intercalate (Op.all.map Op.name))])

theorem stepErrors_of_entry {step name : Value} {argument : Option Value} {path : String}
    (h : entryOf? step = some (name, argument)) :
    stepErrors step path = entryErrors name argument path := by
  simp only [stepErrors, entryErrors, h]
  cases opOf? name with
  | some op => cases opErrors op argument path <;> rfl
  | none => cases name.label <;> rfl

theorem entryErrors_eq_nil_iff {name : Value} {argument : Option Value} {path : String}
    {found : Option Op} : entryErrors name argument path = .ok (found, []) ↔
      ∃ op, found = some op ∧ name = .str op.name ∧ opErrors op argument path = .ok [] := by
  simp only [← opOf?_eq_some_iff, entryErrors]
  cases opOf? name with
  | none => cases name.label <;> simp [Except.map]
  | some op =>
    cases he : opErrors op argument path with
    | error fault => simp [he, Except.map]
    | ok errors => simp [he, Except.map, eq_comm]

/-- **Nothing is wrong with a step iff it stands for an operation.** -/
theorem stepErrors_eq_nil_iff {step : Value} {path : String} {found : Option Op} :
    stepErrors step path = .ok (found, []) ↔ ∃ op, found = some op ∧ StepIs step op := by
  cases he : entryOf? step with
  | none =>
    refine iff_of_false (by simp [stepErrors, he]) ?_
    rintro ⟨op, _, hstep⟩
    cases hstep <;> cases he
  | some entry =>
    obtain ⟨name, argument⟩ := entry
    rw [stepErrors_of_entry he, entryErrors_eq_nil_iff]
    refine exists_congr fun op => and_congr_right fun _ => ?_
    constructor
    · rintro ⟨rfl, hop⟩
      unfold entryOf? at he
      split at he <;> cases he
      · exact .bare (opErrors_bare_iff.mp hop)
      · exact .given (opErrors_given_iff.mp hop)
    · intro hstep
      cases hstep with
      | bare hform =>
        cases he
        exact ⟨rfl, opErrors_bare_iff.mpr hform⟩
      | given hfits =>
        cases he
        exact ⟨rfl, opErrors_given_iff.mpr hfits⟩

/-! ### The order of steps -/

/-- Operations that continue or end a block are within one, and in the end as many blocks are open
as are left. -/
structure Bracketed (depth : Nat) (ops : List Op) (left : Nat) : Prop where
  within : ∀ before op after, ops = before ++ op :: after → op.NeedsBlock →
    before.count .end_ < depth + before.count .either
  balance : depth + ops.count .either = left + ops.count .end_

/-- Operations that end a check come last. -/
def FinalizesLast (ops : List Op) : Prop :=
  ∀ before op after, ops = before ++ op :: after → op.endsCheck → after = []

/-- The steps of a check. -/
def StepsConform (steps : List Value) : Prop :=
  steps ≠ [] ∧ ∃ ops, List.Forall₂ StepIs steps ops ∧ Bracketed 0 ops 0 ∧ FinalizesLast ops

/-- A place in a list is the first one or one after it. -/
theorem forall_place_cons_iff {α : Type} {a : α} {l : List α} {p : List α → α → List α → Prop} :
    (∀ before b after, a :: l = before ++ b :: after → p before b after) ↔
      p [] a l ∧ ∀ before b after, l = before ++ b :: after → p (a :: before) b after := by
  constructor
  · intro h
    refine ⟨h [] a l rfl, ?_⟩
    rintro before b after rfl
    exact h (a :: before) b after rfl
  · rintro ⟨hfirst, hlater⟩ (_ | ⟨_, before⟩) b after h
    · cases h
      exact hfirst
    · cases h
      exact hlater before b after rfl

theorem finalizesLast_cons_iff {op : Op} {ops : List Op} :
    FinalizesLast (op :: ops) ↔ (op.endsCheck → ops = []) ∧ FinalizesLast ops :=
  forall_place_cons_iff

theorem blockDepth_unopened_iff {depth : Nat} {op : Op} :
    (blockDepth depth op).2 = false ↔ (op.NeedsBlock → 0 < depth) := by
  cases op <;> simp [blockDepth, Op.NeedsBlock, Nat.pos_iff_ne_zero]

/-- The blocks that were opened and not closed, counted from the start or by the counter. -/
theorem count_blockDepth {depth : Nat} {op : Op} (h : op.NeedsBlock → 0 < depth) (ops : List Op) :
    depth + (op :: ops).count .either + ops.count .end_
      = (blockDepth depth op).1 + ops.count .either + (op :: ops).count .end_ := by
  cases op with
  | either => simp [blockDepth]; omega
  | end_ =>
    have hpos : 0 < depth := h (.inr rfl)
    simp [blockDepth]; omega
  | _ => simp [blockDepth]

/-- **The counter of open blocks counts.** -/
theorem bracketed_cons_iff {depth left : Nat} {op : Op} {ops : List Op} :
    Bracketed depth (op :: ops) left ↔
      (op.NeedsBlock → 0 < depth) ∧ Bracketed (blockDepth depth op).1 ops left := by
  constructor
  · rintro ⟨hwithin, hbalance⟩
    obtain ⟨hfirst, hlater⟩ := forall_place_cons_iff.mp hwithin
    have hop : op.NeedsBlock → 0 < depth := by simpa using hfirst
    refine ⟨hop, fun before o after hsplit ho => ?_, ?_⟩
    · have hcount := count_blockDepth hop before
      have := hlater before o after hsplit ho
      omega
    · have := count_blockDepth hop ops
      omega
  · rintro ⟨hop, hwithin, hbalance⟩
    refine ⟨forall_place_cons_iff.mpr ⟨by simpa using hop, fun before o after hsplit ho => ?_⟩, ?_⟩
    · have hcount := count_blockDepth hop before
      have := hwithin before o after hsplit ho
      omega
    · have := count_blockDepth hop ops
      omega

theorem placeErrors_eq_nil_iff {op : Op} {unopened isLast : Bool} {path : String} :
    placeErrors op unopened isLast path = [] ↔
      unopened = false ∧ (op.endsCheck → isLast = true) := by
  cases unopened <;> cases isLast <;> cases h : op.endsCheck <;> simp [placeErrors, h]

section Steps

variable {path : String} {index depth left : Nat} {step : Value} {rest : List Value}
  {errors : List SuiteError}

/-- A step that stands for no operation does not count. -/
theorem stepsErrorsFrom_of_none (h : stepErrors step s!"{path}[{index}]" = .ok (none, errors)) :
    stepsErrorsFrom path index depth (step :: rest) = do
      let (others, left) ← stepsErrorsFrom path (index + 1) depth rest
      return (errors ++ others, left) := by
  rw [stepsErrorsFrom, h]
  rfl

theorem stepsErrorsFrom_of_op {op : Op}
    (h : stepErrors step s!"{path}[{index}]" = .ok (some op, errors)) :
    stepsErrorsFrom path index depth (step :: rest) = do
      let (others, left) ← stepsErrorsFrom path (index + 1) (blockDepth depth op).1 rest
      return (errors ++ placeErrors op (blockDepth depth op).2 rest.isEmpty s!"{path}[{index}]"
        ++ others, left) := by
  rw [stepsErrorsFrom, h]
  rfl

theorem stepsErrorsFrom_of_error {fault : Fault}
    (h : stepErrors step s!"{path}[{index}]" = .error fault) :
    stepsErrorsFrom path index depth (step :: rest) = .error fault := by
  rw [stepsErrorsFrom, h]
  rfl

/-- What the validator says of a step and the steps after it. -/
theorem stepsErrorsFrom_cons_iff :
    stepsErrorsFrom path index depth (step :: rest) = .ok ([], left) ↔
      ∃ op, StepIs step op ∧ (op.NeedsBlock → 0 < depth) ∧ (op.endsCheck → rest = []) ∧
        stepsErrorsFrom path (index + 1) (blockDepth depth op).1 rest = .ok ([], left) := by
  constructor
  · intro h
    cases hstep : stepErrors step s!"{path}[{index}]" with
    | error fault =>
      rw [stepsErrorsFrom_of_error hstep] at h
      cases h
    | ok result =>
      obtain ⟨found, errors⟩ := result
      cases found with
      | none =>
        rw [stepsErrorsFrom_of_none hstep] at h
        obtain ⟨⟨others, left⟩, _, h⟩ := bind_eq_ok h
        have hnil : errors ++ others = [] := (Prod.mk.inj (Except.ok.inj h)).1
        rw [(List.append_eq_nil_iff.mp hnil).1] at hstep
        obtain ⟨_, hfound, _⟩ := stepErrors_eq_nil_iff.mp hstep
        cases hfound
      | some op =>
        rw [stepsErrorsFrom_of_op hstep] at h
        obtain ⟨⟨others, left'⟩, hothers, h⟩ := bind_eq_ok h
        obtain ⟨hnil, rfl⟩ := Prod.mk.inj (Except.ok.inj h)
        simp only [List.append_eq_nil_iff, placeErrors_eq_nil_iff, blockDepth_unopened_iff,
          List.isEmpty_iff] at hnil
        obtain ⟨⟨rfl, hplace⟩, rfl⟩ := hnil
        obtain ⟨_, hfound, hstep⟩ := stepErrors_eq_nil_iff.mp hstep
        cases hfound
        exact ⟨op, hstep, hplace.1, hplace.2, hothers⟩
  · rintro ⟨op, hstep, hblock, hlast, hothers⟩
    have hplace : placeErrors op (blockDepth depth op).2 rest.isEmpty s!"{path}[{index}]" = [] :=
      placeErrors_eq_nil_iff.mpr
        ⟨blockDepth_unopened_iff.mpr hblock, fun h => List.isEmpty_iff.mpr (hlast h)⟩
    rw [stepsErrorsFrom_of_op (stepErrors_eq_nil_iff.mpr ⟨op, rfl, hstep⟩), hothers, hplace]
    rfl

end Steps

theorem stepsErrorsFrom_eq_nil_iff (path : String) (index : Nat) {depth left : Nat}
    {steps : List Value} : stepsErrorsFrom path index depth steps = .ok ([], left) ↔
      ∃ ops, List.Forall₂ StepIs steps ops ∧ Bracketed depth ops left ∧ FinalizesLast ops := by
  induction steps generalizing index depth with
  | nil =>
    simp only [stepsErrorsFrom, Except.ok.injEq, Prod.mk.injEq, true_and]
    constructor
    · rintro rfl
      exact ⟨[], .nil, ⟨fun before _ _ h => by simp at h, rfl⟩, fun before _ _ h => by simp at h⟩
    · rintro ⟨ops, hops, hbracketed, _⟩
      cases hops
      simpa using hbracketed.balance
  | cons step rest ih =>
    rw [stepsErrorsFrom_cons_iff]
    constructor
    · rintro ⟨op, hstep, hblock, hlast, hrest⟩
      obtain ⟨ops, hops, hbracketed, hfinal⟩ := (ih (index + 1)).mp hrest
      refine ⟨op :: ops, .cons hstep hops, bracketed_cons_iff.mpr ⟨hblock, hbracketed⟩,
        finalizesLast_cons_iff.mpr ⟨fun h => ?_, hfinal⟩⟩
      rw [hlast h] at hops
      cases hops
      rfl
    · rintro ⟨_, hops, hbracketed, hfinal⟩
      cases hops with
      | @cons _ op _ ops hstep hops =>
        obtain ⟨hblock, hbracketed⟩ := bracketed_cons_iff.mp hbracketed
        obtain ⟨hlast, hfinal⟩ := finalizesLast_cons_iff.mp hfinal
        refine ⟨op, hstep, hblock, fun h => ?_, (ih (index + 1)).mpr ⟨ops, hops, hbracketed, hfinal⟩⟩
        rw [hlast h] at hops
        cases hops
        rfl

/-- **Nothing is wrong with steps iff they stand for operations in their order.** -/
theorem stepsErrors_eq_nil_iff {steps : List Value} {path : String} :
    stepsErrors steps path = .ok [] ↔
      ∃ ops, List.Forall₂ StepIs steps ops ∧ Bracketed 0 ops 0 ∧ FinalizesLast ops := by
  rw [← stepsErrorsFrom_eq_nil_iff path 0, stepsErrors]
  cases stepsErrorsFrom path 0 0 steps with
  | error fault => simp [bind, Except.bind]
  | ok result =>
    obtain ⟨errors, left⟩ := result
    simp [bind, Except.bind, pure, Except.pure]

end Suite

end Attest

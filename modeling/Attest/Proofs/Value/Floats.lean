import Attest.Proofs.Value.Bare

/-!
# The floating numbers of a value

A condition on all the floating numbers of a JSON value, at any depth. It is kept by whatever puts
values together or numbers their nodes.

## Main definitions

* `Double.IsFinite` — numbers that are neither infinite nor NaN
* `Value.Floats` — all floating numbers of a value satisfy a condition

## Main results

* `Value.floats_asDocument_iff` — numbering the nodes leaves the numbers alone
-/

namespace Attest

/-- A number that is neither infinite nor NaN. -/
def Double.IsFinite : Double → Prop
  | .finite .. => True
  | _ => False

namespace Value

section

variable (p : Double → Prop)

mutual

/-- All floating numbers of a JSON value satisfy the condition. -/
def Floats : Value → Prop
  | .float x => p x
  | .array _ _ items => FloatsItems items
  | .object _ _ entries => FloatsEntries entries
  | _ => True

def FloatsItems : List Value → Prop
  | [] => True
  | v :: rest => v.Floats ∧ FloatsItems rest

def FloatsEntries : Entries → Prop
  | [] => True
  | (_, v) :: rest => v.Floats ∧ FloatsEntries rest

end

end

variable {p q : Double → Prop}

theorem floatsItems_iff {items : List Value} : FloatsItems p items ↔ ∀ v ∈ items, v.Floats p := by
  induction items with
  | nil => simp [FloatsItems]
  | cons v rest ih => simp [FloatsItems, ih]

theorem floatsEntries_iff {entries : Entries} :
    FloatsEntries p entries ↔ ∀ e ∈ entries, e.2.Floats p := by
  induction entries with
  | nil => simp [FloatsEntries]
  | cons e rest ih => simp [FloatsEntries, ih]

mutual

theorem Floats.mono (hpq : ∀ x, p x → q x) : ∀ {v : Value}, v.Floats p → v.Floats q
  | .float x => hpq x
  | .array _ _ _ => FloatsItems.mono hpq
  | .object _ _ _ => FloatsEntries.mono hpq
  | .null | .bool _ | .int _ | .str _ | .set _ | .bytes _ | .date _ | .timestamp _
  | .pattern .. | .missing => id

theorem FloatsItems.mono (hpq : ∀ x, p x → q x) : ∀ {items : List Value},
    FloatsItems p items → FloatsItems q items
  | [] => id
  | _ :: _ => fun h => ⟨h.1.mono hpq, h.2.mono hpq⟩

theorem FloatsEntries.mono (hpq : ∀ x, p x → q x) : ∀ {entries : Entries},
    FloatsEntries p entries → FloatsEntries q entries
  | [] => id
  | (_, _) :: _ => fun h => ⟨h.1.mono hpq, h.2.mono hpq⟩

end

mutual

theorem floats_bare_iff : ∀ v : Value, v.bare.Floats p ↔ v.Floats p
  | .array _ _ items => floatsItems_bare_iff items
  | .object _ _ entries => floatsEntries_bare_iff entries
  | .null | .bool _ | .int _ | .float _ | .str _ | .set _ | .bytes _ | .date _ | .timestamp _
  | .pattern .. | .missing => Iff.rfl

theorem floatsItems_bare_iff : ∀ items : List Value,
    FloatsItems p (bareItems items) ↔ FloatsItems p items
  | [] => Iff.rfl
  | v :: rest => and_congr (floats_bare_iff v) (floatsItems_bare_iff rest)

theorem floatsEntries_bare_iff : ∀ entries : Entries,
    FloatsEntries p (bareEntries entries) ↔ FloatsEntries p entries
  | [] => Iff.rfl
  | (_, v) :: rest => and_congr (floats_bare_iff v) (floatsEntries_bare_iff rest)

end

theorem floats_asDocument_iff {v : Value} : v.asDocument.Floats p ↔ v.Floats p := by
  rw [← floats_bare_iff, bare_asDocument, floats_bare_iff]

/-! ### Entries -/

theorem FloatsEntries.insert {key v : Value} (hv : v.Floats p) : ∀ {entries : Entries},
    FloatsEntries p entries → FloatsEntries p (Value.insert key v entries)
  | [], _ => ⟨hv, trivial⟩
  | (k, w) :: rest, h => by
    rw [Value.insert]
    split
    · exact ⟨hv, h.2⟩
    · exact ⟨h.1, h.2.insert hv⟩

theorem FloatsEntries.ofPairs {entries : Entries} (h : FloatsEntries p entries) :
    FloatsEntries p (Value.ofPairs entries) := by
  have hfold : ∀ {pairs acc : Entries}, FloatsEntries p pairs → FloatsEntries p acc →
      FloatsEntries p (pairs.foldl (fun es e => Value.insert e.1 e.2 es) acc) := by
    intro pairs
    induction pairs with
    | nil => exact fun _ hacc => hacc
    | cons e rest ih => exact fun hpairs hacc => ih hpairs.2 (hacc.insert hpairs.1)
  exact hfold h trivial

end Value

end Attest

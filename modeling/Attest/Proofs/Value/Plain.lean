import Attest.Proofs.Value.Writable
import Attest.Value.Equality

/-!
# Plain JSON

Values come from everywhere: JSON texts, suites, callers. Those that JSON itself has are made of
lists, plain objects with string keys, and atoms, and nothing can go wrong when they are asked for
their kind. Showing them is another matter, because of integers. The predicate has the condition on
integers as a parameter: `Plain fun _ => True` says that a value is JSON, and `Shown` says besides
that all its integers have a text.

## Main definitions

* `Value.Plain`, `Value.Shown` — JSON, and JSON that has a text

## Main results

* `Value.Plain.kind_ok`, `Value.Plain.size_ok` — plain values have a kind, and a size if any
* `Value.IsJson.succeeds_excerpt_iff` — a JSON value has a text iff all its integers have one
-/

namespace Attest

namespace Value

section

variable (p : Int → Prop)

mutual

/-- A value that JSON has, with a condition on its integers. -/
def Plain : Value → Prop
  | .null | .bool _ | .float _ | .str _ => True
  | .int n => p n
  | .array _ .list items => PlainItems items
  | .object _ .plain entries => PlainEntries entries
  | _ => False

def PlainItems : List Value → Prop
  | [] => True
  | v :: rest => v.Plain ∧ PlainItems rest

def PlainEntries : Entries → Prop
  | [] => True
  | (k, v) :: rest => (∃ s, k = .str s) ∧ v.Plain ∧ PlainEntries rest

end

end

/-- JSON of which all integers have a text. -/
def Shown (v : Value) : Prop := v.Plain fun n => n.natAbs < digitBound

/-- A value that JSON has. -/
def IsJson (v : Value) : Prop := v.Plain fun _ => True

variable {p q : Int → Prop}

theorem plainItems_iff {items : List Value} : PlainItems p items ↔ ∀ v ∈ items, v.Plain p := by
  induction items with
  | nil => simp [PlainItems]
  | cons v rest ih => simp [PlainItems, ih]

theorem plainEntries_iff {entries : Entries} :
    PlainEntries p entries ↔ ∀ e ∈ entries, (∃ s, e.1 = .str s) ∧ e.2.Plain p := by
  induction entries with
  | nil => simp [PlainEntries]
  | cons e rest ih => simp [PlainEntries, ih, and_assoc]

mutual

theorem Plain.mono (hpq : ∀ n, p n → q n) : ∀ {v : Value}, v.Plain p → v.Plain q
  | .null, _ | .bool _, _ | .float _, _ | .str _, _ => trivial
  | .int n, h => hpq n h
  | .array _ .list items, h => PlainItems.mono hpq (show PlainItems p items from h)
  | .object _ .plain entries, h => PlainEntries.mono hpq (show PlainEntries p entries from h)

theorem PlainItems.mono (hpq : ∀ n, p n → q n) : ∀ {items : List Value},
    PlainItems p items → PlainItems q items
  | [], _ => trivial
  | _ :: _, h => ⟨h.1.mono hpq, h.2.mono hpq⟩

theorem PlainEntries.mono (hpq : ∀ n, p n → q n) : ∀ {entries : Entries},
    PlainEntries p entries → PlainEntries q entries
  | [], _ => trivial
  | (_, _) :: _, h => ⟨h.1, h.2.1.mono hpq, h.2.2.mono hpq⟩

end

theorem Shown.isJson {v : Value} (h : v.Shown) : v.IsJson := Plain.mono (fun _ _ => trivial) h

/-! ### Parts -/

theorem PlainEntries.lookup {key v : Value} : ∀ {entries : Entries}, PlainEntries p entries →
    Value.lookup key entries = some v → v.Plain p
  | (k, w) :: rest, h, hv => by
    rw [Value.lookup] at hv
    split at hv
    · rw [← Option.some.inj hv]
      exact h.2.1
    · exact h.2.2.lookup hv

theorem PlainEntries.insert {key v : Value} (hk : ∃ s, key = .str s) (hv : v.Plain p) :
    ∀ {entries : Entries}, PlainEntries p entries → PlainEntries p (Value.insert key v entries)
  | [], _ => ⟨hk, hv, trivial⟩
  | (k, w) :: rest, h => by
    rw [Value.insert]
    split
    · exact ⟨h.1, hv, h.2.2⟩
    · exact ⟨h.1, h.2.1, h.2.2.insert hk hv⟩

theorem PlainEntries.ofPairs {entries : Entries} (h : PlainEntries p entries) :
    PlainEntries p (Value.ofPairs entries) := by
  have hfold : ∀ {pairs acc : Entries}, PlainEntries p pairs → PlainEntries p acc →
      PlainEntries p (pairs.foldl (fun es e => Value.insert e.1 e.2 es) acc) := by
    intro pairs
    induction pairs with
    | nil => exact fun _ hacc => hacc
    | cons e rest ih => exact fun hpairs hacc => ih hpairs.2.2 (hacc.insert hpairs.1 hpairs.2.1)
  exact hfold h trivial

/-! ### Kinds and sizes -/

theorem Plain.kind_ok : ∀ {v : Value}, v.Plain p → Succeeds v.kind
  | .null, _ | .bool _, _ | .int _, _ | .float _, _ | .str _, _ | .array _ .list _, _
  | .object _ .plain _, _ => ⟨_, rfl⟩

theorem Plain.size_ok : ∀ {v : Value}, v.Plain p → Succeeds v.size
  | .null, _ | .bool _, _ | .int _, _ | .float _, _ | .str _, _ | .array _ .list _, _
  | .object _ .plain _, _ => ⟨_, rfl⟩

theorem Plain.items {node : NodeId} {form : ArrayForm} {items : List Value}
    (h : (Value.array node form items).Plain p) : PlainItems p items := by
  cases form with
  | list => exact h
  | tuple => exact h.elim

theorem Plain.entries {node : NodeId} {form : ObjectForm} {entries : Entries}
    (h : (Value.object node form entries).Plain p) : PlainEntries p entries := by
  cases form with
  | plain => exact h
  | view => exact h.elim

/-! ### Texts -/

mutual

/-- Among JSON values those that can be shown are those whose integers have a text. -/
theorem IsJson.legible_iff : ∀ {v : Value}, v.IsJson → (v.Legible ↔ v.Shown)
  | .null, _ | .bool _, _ | .float _, _ | .str _, _ | .int _, _ => Iff.rfl
  | .array _ .list items, h => legibleItems_iff (show PlainItems _ items from h)
  | .object _ .plain entries, h => legibleEntries_iff (show PlainEntries _ entries from h)

theorem legibleItems_iff : ∀ {items : List Value}, PlainItems (fun _ => True) items →
    (LegibleItems items ↔ PlainItems (fun n => n.natAbs < digitBound) items)
  | [], _ => Iff.rfl
  | _ :: _, h => and_congr (IsJson.legible_iff h.1) (legibleItems_iff h.2)

theorem legibleEntries_iff : ∀ {entries : Entries}, PlainEntries (fun _ => True) entries →
    (LegibleEntries entries ↔ PlainEntries (fun n => n.natAbs < digitBound) entries)
  | [], _ => Iff.rfl
  | (_, _) :: _, ⟨⟨s, hs⟩, hv, hrest⟩ => by
    subst hs
    exact and_congr (iff_of_true trivial ⟨s, rfl⟩)
      (and_congr (IsJson.legible_iff hv) (legibleEntries_iff hrest))

end

/-- **A JSON value has a text iff all its integers have one.** -/
theorem IsJson.succeeds_excerpt_iff {v : Value} (h : v.IsJson) (limit : Int) :
    Succeeds (v.excerpt limit) ↔ v.Shown :=
  Value.succeeds_excerpt_iff.trans h.legible_iff

theorem Shown.excerpt_ok {v : Value} (h : v.Shown) (limit : Int) : Succeeds (v.excerpt limit) :=
  (h.isJson.succeeds_excerpt_iff limit).mpr h

theorem IsJson.succeeds_label_iff {v : Value} (h : v.IsJson) : Succeeds v.label ↔ v.Shown :=
  Value.succeeds_label_iff.trans h.legible_iff

mutual

/-- **What can be shown is written in every style.** -/
theorem Shown.writable {style : Json.Style} : ∀ {v : Value}, v.Shown → v.Writable style
  | .null, _ | .bool _, _ | .float _, _ | .str _, _ => trivial
  | .int _, h => h
  | .array _ .list _, h => writableItems_iff.mpr (forall_writable_items h)
  | .object _ .plain _, h => (writable_texts_iff fun e he => (plainEntries_iff.mp h e he).1).mpr
      (forall_writable_entries h)

theorem forall_writable_items {style : Json.Style} : ∀ {items : List Value},
    PlainItems (fun n => n.natAbs < digitBound) items → ∀ v ∈ items, v.Writable style
  | [] => fun _ => nofun
  | _ :: _ => fun h => List.forall_mem_cons.mpr ⟨Shown.writable h.1, forall_writable_items h.2⟩

theorem forall_writable_entries {style : Json.Style} : ∀ {entries : Entries},
    PlainEntries (fun n => n.natAbs < digitBound) entries → ∀ e ∈ entries, e.2.Writable style
  | [] => fun _ => nofun
  | (_, _) :: _ => fun h =>
    List.forall_mem_cons.mpr ⟨Shown.writable h.2.1, forall_writable_entries h.2.2⟩

end

/-- The whole text of what can be shown is its compact JSON. -/
theorem Shown.exists_written {v : Value} (h : v.Shown) :
    ∃ whole, Json.write .compact v = .ok whole ∧ v.rendered = .ok whole := by
  obtain ⟨whole, hwhole⟩ : Succeeds (Json.write .compact v) := succeeds_writeAt_iff.mpr h.writable
  refine ⟨whole, hwhole, ?_⟩
  rw [rendered, hwhole]

/-! ### Numbering nodes -/

mutual

theorem Plain.numbered {next : NodeId} : ∀ {v : Value}, v.Plain p → (v.numbered next).1.Plain p
  | .null, h | .bool _, h | .int _, h | .float _, h | .str _, h => h
  | .array _ .list items, h => by
    rw [Value.numbered]
    · exact PlainItems.numbered (show PlainItems p items from h)
    · rintro ⟨⟩
  | .object _ .plain entries, h => PlainEntries.numbered (show PlainEntries p entries from h)

theorem PlainItems.numbered {next : NodeId} : ∀ {items : List Value}, PlainItems p items →
    PlainItems p (numberedItems next items).1
  | [], _ => trivial
  | _ :: _, h => ⟨h.1.numbered, h.2.numbered⟩

theorem PlainEntries.numbered {next : NodeId} : ∀ {entries : Entries}, PlainEntries p entries →
    PlainEntries p (numberedEntries next entries).1
  | [], _ => trivial
  | (_, _) :: _, h => by
    obtain ⟨⟨s, rfl⟩, hv, hrest⟩ := h
    exact ⟨⟨s, rfl⟩, hv.numbered, hrest.numbered⟩

end

end Value

end Attest

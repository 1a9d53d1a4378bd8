import Attest.Proofs.Value.Sorting
import Attest.Value.Excerpt

/-!
# Values that can be written

The text of a value in diagnostics fails for its integers alone, so the values that have one can be
told without computing it. The same is done for JSON in every style: beside the integers it is the
keys of objects that may have no text or no order, and where a style has no fallback there are the
values that are not JSON. The fallback is the text of diagnostics, so an integer in a set counts too.

Keys are never put through the fallback. A date stands for itself as a value, but not as a key.

## Main definitions

* `Value.Legible` — all integers of a value have a text
* `Value.Keyed` — a key that has a text
* `Value.Writable` — what can be written in a style

## Main results

* `Value.succeeds_display_iff`, `succeeds_label_iff`, `succeeds_excerpt_iff` — diagnostics
* `Value.succeeds_writeAt_iff` — JSON in any style
* `Value.writable_sorted_iff` — objects that are written with their keys in order
-/

namespace Attest

theorem succeeds_intText_iff {n : Int} : Succeeds (intText n) ↔ n.natAbs < digitBound := by
  unfold intText
  split
  · next h => exact iff_of_true (succeeds_ok _) h
  · next h => exact iff_of_false (not_succeeds_error _) h

theorem lt_digitBound {n : Nat} (h : n < 1000) : n < digitBound := by
  have hpow : Nat.pow 10 3 ≤ digitBound := Nat.pow_le_pow_right (by decide) (by decide)
  exact Nat.lt_of_lt_of_le h hpow

theorem length_toDigits_le {i k : Nat} (hk : 0 < k) (h : i < Nat.pow 10 k) :
    (Nat.toDigits 10 i).length ≤ k :=
  (Nat.length_toDigits_le_iff (by decide) hk).mpr h

namespace Value

/-! ### Diagnostics -/

mutual

/-- All integers of a value have a text, those in keys and in sets included. -/
def Legible : Value → Prop
  | .int n => n.natAbs < digitBound
  | .array _ _ items => LegibleItems items
  | .set members => LegibleItems members
  | .object _ _ entries => LegibleEntries entries
  | _ => True

def LegibleItems : List Value → Prop
  | [] => True
  | v :: rest => v.Legible ∧ LegibleItems rest

def LegibleEntries : Entries → Prop
  | [] => True
  | (k, v) :: rest => k.Legible ∧ v.Legible ∧ LegibleEntries rest

end

mutual

/-- **A value is shown iff its integers are.** -/
theorem succeeds_display_iff : ∀ {v : Value}, Succeeds v.display ↔ v.Legible
  | .int _ => succeeds_intText_iff
  | .array _ .list items | .array _ .tuple items => by
    rw [display]
    exact (succeeds_return_iff _).trans succeeds_displayItems_iff
  | .object _ .plain entries | .object _ .view entries => by
    rw [display]
    exact (succeeds_return_iff _).trans succeeds_displayEntries_iff
  | .set (v :: members) => by
    rw [display]
    · exact (succeeds_return_iff _).trans succeeds_displayItems_iff
    · rintro ⟨⟩
  | .null | .bool _ | .float _ | .str _ | .set [] | .bytes _ | .date _ | .timestamp _
  | .pattern .. | .missing => iff_of_true ⟨_, rfl⟩ trivial

theorem succeeds_displayItems_iff : ∀ {items : List Value},
    Succeeds (displayItems items) ↔ LegibleItems items
  | [] => iff_of_true ⟨_, rfl⟩ trivial
  | v :: rest => by
    rw [displayItems]
    exact (succeeds_both_iff _).trans (and_congr succeeds_display_iff succeeds_displayItems_iff)

theorem succeeds_displayEntries_iff : ∀ {entries : Entries},
    Succeeds (displayEntries entries) ↔ LegibleEntries entries
  | [] => iff_of_true ⟨_, rfl⟩ trivial
  | (k, v) :: rest => by
    rw [displayEntries, succeeds_bind_iff]
    simp only [succeeds_both_iff, exists_and_right]
    exact and_congr succeeds_display_iff
      (and_congr succeeds_display_iff succeeds_displayEntries_iff)

end

theorem legibleItems_iff_forall {items : List Value} :
    LegibleItems items ↔ ∀ v ∈ items, v.Legible := by
  induction items with
  | nil => simp [LegibleItems]
  | cons v rest ih => simp [LegibleItems, ih]

theorem legibleEntries_iff_forall {entries : Entries} :
    LegibleEntries entries ↔ ∀ e ∈ entries, e.1.Legible ∧ e.2.Legible := by
  induction entries with
  | nil => simp [LegibleEntries]
  | cons e rest ih => simp [LegibleEntries, ih, and_assoc]

/-- Dates and strings stand for themselves, and have no integers. -/
theorem succeeds_label_iff {v : Value} : Succeeds v.label ↔ v.Legible := by
  cases v with
  | str | date | timestamp => exact iff_of_true ⟨_, rfl⟩ trivial
  | _ => exact succeeds_display_iff

/-! ### JSON -/

/-- A key that has a text: a string, null, a truth value or a number. -/
def Keyed : Value → Prop
  | .str _ | .null | .bool _ | .float _ => True
  | .int n => n.natAbs < digitBound
  | _ => False

theorem succeeds_keyText_iff {k : Value} : Succeeds (Json.keyText k) ↔ k.Keyed := by
  cases k with
  | int n => exact succeeds_intText_iff
  | str | null | bool | float => exact iff_of_true ⟨_, rfl⟩ trivial
  | _ => exact iff_of_false (not_succeeds_error _) id

/-- **The keys that have texts and an order** are strings, or numbers, or null alone. -/
theorem sortable_keyed_iff {keys : List Value} :
    (Sortable keys ∧ ∀ k ∈ keys, k.Keyed) ↔
      (∀ k ∈ keys, ∃ s, k = .str s) ∨
        (∀ k ∈ keys, k.keySort? = some .number ∧ k.Keyed) ∨ keys = [.null] := by
  constructor
  · rintro ⟨hlength | ⟨s, hs⟩, hkeyed⟩
    · match keys with
      | [] => exact .inl (by simp)
      | [k] =>
        have hk := hkeyed k List.mem_cons_self
        cases k with
        | str s => exact .inl (by simp)
        | null => exact .inr (.inr rfl)
        | bool | int | float => exact .inr (.inl (by simpa [keySort?] using hk))
        | _ => exact hk.elim
      | _ :: _ :: _ => simp at hlength
    · by_cases hnumber : s = .number
      · exact .inr (.inl fun k hk => ⟨hnumber ▸ hs k hk, hkeyed k hk⟩)
      · -- the other sorts of keys that have a text are strings
        refine .inl fun k hk => ?_
        have hsort := hs k hk
        have htext := hkeyed k hk
        cases k with
        | str s => exact ⟨s, rfl⟩
        | null => cases hsort
        | bool | int | float => exact absurd (Option.some.inj hsort).symm hnumber
        | _ => exact htext.elim
  · rintro (hstr | hnumber | rfl)
    · refine ⟨.inr ⟨.text, fun k hk => ?_⟩, fun k hk => ?_⟩
      all_goals
        obtain ⟨s, rfl⟩ := hstr k hk
        trivial
    · exact ⟨.inr ⟨.number, fun k hk => (hnumber k hk).1⟩, fun k hk => (hnumber k hk).2⟩
    · exact ⟨.inl (Nat.le_refl 1), by simp [Keyed]⟩

section

variable (style : Json.Style)

mutual

/-- The values that can be written in a style. -/
def Writable : Value → Prop
  | .null | .bool _ | .float _ | .str _ => True
  | .int n => n.natAbs < digitBound
  | .array _ _ items => WritableItems items
  | .object _ .plain entries =>
    (style.sortKeys = true → Sortable (entries.map Prod.fst)) ∧ WritableEntries entries
  | v => style.labelOthers = true ∧ v.Legible

def WritableItems : List Value → Prop
  | [] => True
  | v :: rest => v.Writable ∧ WritableItems rest

def WritableEntries : Entries → Prop
  | [] => True
  | (k, v) :: rest => k.Keyed ∧ v.Writable ∧ WritableEntries rest

end

end

variable {style : Json.Style}

theorem Keyed.legible {k : Value} (h : k.Keyed) : k.Legible := by
  cases k with
  | int n => exact h
  | str | null | bool | float => trivial
  | _ => exact h.elim

mutual

/-- What can be written can be shown. -/
theorem Writable.legible : ∀ {v : Value}, v.Writable style → v.Legible
  | .null, _ | .bool _, _ | .float _, _ | .str _, _ => trivial
  | .int _, h => h
  | .array _ _ items, h => WritableItems.legible (show WritableItems style items from h)
  | .object _ .plain _, h => WritableEntries.legible h.2
  | .object _ .view _, h | .set _, h | .bytes _, h | .date _, h | .timestamp _, h
  | .pattern .., h | .missing, h => h.2

theorem WritableItems.legible : ∀ {items : List Value},
    WritableItems style items → LegibleItems items
  | [], _ => trivial
  | _ :: _, h => ⟨h.1.legible, h.2.legible⟩

theorem WritableEntries.legible : ∀ {entries : Entries},
    WritableEntries style entries → LegibleEntries entries
  | [], _ => trivial
  | (_, _) :: _, h => ⟨h.1.legible, h.2.1.legible, h.2.2.legible⟩

end

theorem writableItems_iff {items : List Value} :
    WritableItems style items ↔ ∀ v ∈ items, v.Writable style := by
  induction items with
  | nil => simp [WritableItems]
  | cons v rest ih => simp [WritableItems, ih]

theorem writableEntries_iff {entries : Entries} :
    WritableEntries style entries ↔ ∀ e ∈ entries, e.1.Keyed ∧ e.2.Writable style := by
  induction entries with
  | nil => simp [WritableEntries]
  | cons e rest ih => simp [WritableEntries, ih, and_assoc]

theorem map_fst_writeEntries (depth : Nat) (entries : Entries) :
    (Json.writeEntries style depth entries).map Prod.fst = entries.map Prod.fst := by
  induction entries with
  | nil => rfl
  | cons e rest ih => rw [Json.writeEntries, List.map_cons, List.map_cons, ih]

/-- An object is written iff its keys can be put in order, where that is asked for, and each of its
entries has a text. -/
theorem succeeds_writeObject_iff {depth : Nat} {node : NodeId} {entries : Entries} :
    Succeeds (Json.writeAt style depth (.object node .plain entries)) ↔
      (style.sortKeys = true → Sortable (entries.map Prod.fst)) ∧
        ∀ e ∈ Json.writeEntries style (depth + 1) entries, Succeeds (Json.entryText style e) := by
  rw [Json.writeAt, ← map_fst_writeEntries (depth + 1)]
  generalize Json.writeEntries style (depth + 1) entries = texts
  cases hsort : style.sortKeys with
  | false =>
    simp only [Bool.false_eq_true, if_false, false_imp_iff, true_and]
    exact (succeeds_return_iff _).trans succeeds_mapM_iff
  | true =>
    simp only [if_true, true_imp_iff]
    rw [← succeeds_sortEntries_iff]
    refine succeeds_bind_iff.trans (Iff.trans ?_ exists_and_right)
    refine exists_congr fun sorted => and_congr_right fun hsorted => ?_
    rw [succeeds_return_iff, succeeds_mapM_iff]
    exact forall_congr' fun e => imp_congr_left (sortEntries_perm hsorted).mem_iff

/-- A value that is not JSON is written iff there is a fallback and it has a label. -/
theorem succeeds_fallback_iff {v : Value} {fault : Fault} :
    Succeeds (if style.labelOthers then v.label.map (Json.quoted style.ascii) else .error fault) ↔
      style.labelOthers = true ∧ v.Legible := by
  split
  · next h => simp only [h, true_and, succeeds_map_iff, succeeds_label_iff]
  · next h => exact iff_of_false (not_succeeds_error fault) fun hv => h hv.1

mutual

/-- **A value is written in a style iff nothing in it is in the way.** -/
theorem succeeds_writeAt_iff {depth : Nat} : ∀ {v : Value},
    Succeeds (Json.writeAt style depth v) ↔ v.Writable style
  | .null | .bool _ | .float _ | .str _ => iff_of_true ⟨_, rfl⟩ trivial
  | .int _ => succeeds_intText_iff
  | .array _ _ items => by
    rw [Json.writeAt]
    exact (succeeds_return_iff _).trans succeeds_writeItems_iff
  | .object _ .plain entries =>
    succeeds_writeObject_iff.trans (and_congr_right fun _ => succeeds_writeEntries_iff)
  | .object _ .view _ | .set _ | .bytes _ | .date _ | .timestamp _ | .pattern .. | .missing => by
    unfold Json.writeAt Writable
    exact succeeds_fallback_iff

theorem succeeds_writeItems_iff {depth : Nat} : ∀ {items : List Value},
    Succeeds (Json.writeItems style depth items) ↔ WritableItems style items
  | [] => iff_of_true ⟨_, rfl⟩ trivial
  | v :: rest => by
    rw [Json.writeItems]
    exact (succeeds_both_iff _).trans (and_congr succeeds_writeAt_iff succeeds_writeItems_iff)

theorem succeeds_writeEntries_iff {depth : Nat} : ∀ {entries : Entries},
    (∀ e ∈ Json.writeEntries style depth entries, Succeeds (Json.entryText style e)) ↔
      WritableEntries style entries
  | [] => iff_of_true (by simp [Json.writeEntries]) trivial
  | (k, v) :: rest => by
    rw [Json.writeEntries, List.forall_mem_cons, WritableEntries, ← and_assoc]
    refine and_congr ?_ succeeds_writeEntries_iff
    exact (succeeds_both_iff _).trans (and_congr succeeds_keyText_iff succeeds_writeAt_iff)

end

theorem writable_list_iff {items : List Value} :
    (Value.list items).Writable style ↔ ∀ v ∈ items, v.Writable style :=
  writableItems_iff

/-- Keys that are strings are never in the way. -/
theorem writable_texts_iff {node : NodeId} {entries : Entries}
    (h : ∀ e ∈ entries, ∃ s, e.1 = .str s) :
    (Value.object node .plain entries).Writable style ↔ ∀ e ∈ entries, e.2.Writable style := by
  have hkey : ∀ e ∈ entries, e.1.keySort? = some .text ∧ e.1.Keyed := by
    intro e he
    obtain ⟨s, hs⟩ := h e he
    rw [hs]
    exact ⟨rfl, trivial⟩
  have hsort : ∀ k ∈ entries.map Prod.fst, k.keySort? = some .text :=
    List.forall_mem_map.mpr fun e he => (hkey e he).1
  refine (and_iff_right fun _ => .inr ⟨.text, hsort⟩).trans (writableEntries_iff.trans ?_)
  exact forall₂_congr fun e he => and_iff_right (hkey e he).2

theorem writable_record_iff {fields : List (String × Value)} :
    (Value.record fields).Writable style ↔ ∀ f ∈ fields, f.2.Writable style :=
  (writable_texts_iff (List.forall_mem_map.mpr fun f _ => ⟨f.1, rfl⟩)).trans List.forall_mem_map

/-- **An object with its keys in order** is written iff its keys are strings, or numbers, or null
alone, and its values are written. -/
theorem writable_sorted_iff (hsort : style.sortKeys = true) {node : NodeId} {entries : Entries} :
    (Value.object node .plain entries).Writable style ↔
      ((∀ e ∈ entries, ∃ s, e.1 = .str s) ∨
        (∀ e ∈ entries, e.1.keySort? = some .number ∧ e.1.Keyed) ∨
          entries.map Prod.fst = [.null]) ∧
        ∀ e ∈ entries, e.2.Writable style := by
  have hkeys : (Sortable (entries.map Prod.fst) ∧ ∀ e ∈ entries, e.1.Keyed) ↔
      (∀ e ∈ entries, ∃ s, e.1 = .str s) ∨
        (∀ e ∈ entries, e.1.keySort? = some .number ∧ e.1.Keyed) ∨
          entries.map Prod.fst = [.null] := by
    simpa only [List.forall_mem_map] using @sortable_keyed_iff (entries.map Prod.fst)
  rw [← hkeys, Writable, writableEntries_iff]
  simp only [hsort, true_imp_iff, forall₂_and, and_assoc]

/-- **A value has an excerpt iff it is shown**: what cannot be written is shown instead. -/
theorem succeeds_excerpt_iff {v : Value} {limit : Int} :
    Succeeds (v.excerpt limit) ↔ v.Legible := by
  refine succeeds_map_iff.trans ?_
  unfold rendered
  cases hw : Json.write .compact v with
  | ok text =>
    have hwritable : v.Writable .compact := succeeds_writeAt_iff.mp ⟨text, hw⟩
    exact iff_of_true (succeeds_ok _) hwritable.legible
  | error fault => exact succeeds_display_iff

end Value

end Attest

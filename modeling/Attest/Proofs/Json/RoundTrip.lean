import Attest.Proofs.Json.Rereading
import Attest.Proofs.Value.Excerpt
import Mathlib.Data.List.Nodup

/-!
# There and back

A tree without floating numbers comes back from its text as it was. All that is read from the text
are its values in their order; an object is put together from its members one by one, and so it is
the same again if none of its names is there twice.

## Main definitions

* `Value.Exact` — JSON trees without floating numbers, and with no name twice in an object

## Main results

* `Json.reread_exact` — what is read from the text of such a tree is the tree
* `Document.ofText_excerpt` — and so is the document made from an excerpt that is not cut
-/

namespace Attest

namespace Value

/-- A JSON tree that is written without loss: integers that have a text, and no floating number;
lists; and objects with strings as keys, none of them twice. -/
structure Exact (v : Value) : Prop where
  shown : v.Shown
  wellFormed : v.WellFormed
  noFloats : v.Floats fun _ => False

/-! ### Objects -/

/-- What is under a new key goes to the end. -/
theorem insert_of_not_mem {s : String} {v : Value} : ∀ {entries : Entries},
    (∀ k ∈ entries.map Prod.fst, ∃ t, k = .str t) → .str s ∉ entries.map Prod.fst →
      Value.insert (.str s) v entries = entries ++ [(.str s, v)]
  | [], _, _ => rfl
  | (k, w) :: rest, hkeys, hmem => by
    obtain ⟨⟨t, rfl⟩, hrest⟩ := List.forall_mem_cons.mp hkeys
    obtain ⟨hne, hmem⟩ := not_or.mp (mt List.mem_cons.mpr hmem)
    rw [Value.insert, if_neg fun hsame => hne (sameKey_str_iff.mp hsame).symm,
      insert_of_not_mem hrest hmem, List.cons_append]

/-- Entries with no key twice make up the object as they are. By induction on what is still to be
put in, behind the entries that are in already. -/
theorem ofPairs_of_nodup {entries : Entries} (hkeys : ∀ k ∈ entries.map Prod.fst, ∃ s, k = .str s)
    (hnodup : (entries.map Prod.fst).Nodup) : ofPairs entries = entries := by
  have hfold : ∀ {pairs done : Entries},
      (∀ k ∈ (done ++ pairs).map Prod.fst, ∃ s, k = .str s) →
      ((done ++ pairs).map Prod.fst).Nodup →
      pairs.foldl (fun es e => Value.insert e.1 e.2 es) done = done ++ pairs := by
    intro pairs
    induction pairs with
    | nil => exact fun _ _ => (List.append_nil _).symm
    | cons e rest ih =>
      intro done hkeys hnodup
      obtain ⟨k, v⟩ := e
      have hdone : ∀ k ∈ done.map Prod.fst, ∃ s, k = .str s := fun k hk =>
        hkeys k (by rw [List.map_append]; exact List.mem_append_left _ hk)
      obtain ⟨s, rfl⟩ := hkeys k (by simp)
      have hnew : Value.str s ∉ done.map Prod.fst := by
        rw [List.map_append, List.map_cons] at hnodup
        exact fun hmem => (List.nodup_append.mp hnodup).2.2 _ hmem _ List.mem_cons_self rfl
      rw [List.append_cons] at hkeys hnodup ⊢
      rw [List.foldl_cons, insert_of_not_mem hdone hnew]
      exact ih hkeys hnodup
  exact hfold hkeys hnodup

/-! ### Records -/

/-- An entry of a record. -/
def entry (field : String × Value) : Value × Value := (.str field.1, field.2)

theorem record_eq (fields : List (String × Value)) : record fields = dict (fields.map entry) := rfl

theorem fst_entries (fields : List (String × Value)) :
    (fields.map entry).map Prod.fst = (fields.map Prod.fst).map .str := by
  rw [List.map_map, List.map_map]
  rfl

theorem nodup_entries_iff {fields : List (String × Value)} :
    ((fields.map entry).map Prod.fst).Nodup ↔ (fields.map Prod.fst).Nodup := by
  rw [fst_entries]
  exact List.nodup_map_iff fun _ _ h => Value.str.inj h

end Value

namespace Json

variable {p : Int → Prop}

mutual

/-- **What is read from the text of an exact tree is the tree.** -/
theorem reread_exact : ∀ {v : Value}, v.Plain p → v.WellFormed → v.Floats (fun _ => False) →
    reread v = .ok v.bare
  | .null | .bool _ | .int _ | .str _ => fun _ _ _ => rfl
  | .float _ => fun _ _ hf => hf.elim
  | .array _ .list items => fun h hw hf => by
    rw [reread, rereadItems_exact h hw hf]
    rfl
  | .object _ .plain entries => fun h hw hf => by
    have hkeys := hw.2.keys
    have hnodup := hw.1
    rw [← Value.fst_bareEntries] at hkeys hnodup
    rw [reread, rereadEntries_exact h hw.2 hf, Except.map, Value.ofPairs_of_nodup hkeys hnodup]
    rfl
  | .array _ .tuple _ | .object _ .view _ | .set _ | .bytes _ | .date _ | .timestamp _
  | .pattern .. | .missing => fun h _ _ => h.elim

theorem rereadItems_exact : ∀ {items : List Value}, Value.PlainItems p items →
    Value.WellFormedItems items → Value.FloatsItems (fun _ => False) items →
    rereadItems items = .ok (Value.bareItems items)
  | [], _, _, _ => rfl
  | _ :: _, h, hw, hf => by
    rw [rereadItems_cons, reread_exact h.1 hw.1 hf.1, rereadItems_exact h.2 hw.2 hf.2]
    rfl

theorem rereadEntries_exact : ∀ {entries : Entries}, Value.PlainEntries p entries →
    Value.WellFormedEntries entries → Value.FloatsEntries (fun _ => False) entries →
    rereadEntries entries = .ok (Value.bareEntries entries)
  | [], _, _, _ => rfl
  | (_, _) :: _, h, hw, hf => by
    rw [rereadEntries_cons, reread_exact h.2.1 hw.2.1 hf.1, rereadEntries_exact h.2.2 hw.2.2 hf.2]
    rfl

end

end Json

/-! ### Documents -/

/-- **A tree comes back from its text.** Whatever the limit, if it does not cut the text, the
document made from it is valid; its root is the tree, its members in their order, and equals it. -/
theorem Document.ofText_excerpt {v : Value} (h : v.Exact) : ∃ whole, v.rendered = .ok whole ∧
    ∀ limit : Int, whole.length ≤ limit → ∃ text, v.excerpt limit = .ok text ∧
      (ofText text).isValid = true ∧ (ofText text).root = v.asDocument ∧
      (ofText text).root.bare = v.bare ∧ (ofText text).root.equals v = .ok true := by
  obtain ⟨whole, hwhole, hread, -⟩ := ofText_whole h.shown
  have hroot := hread (Json.reread_exact h.shown h.wellFormed h.noFloats)
  have hbare : v.bare.asDocument.bare = v.bare := by
    rw [Value.asDocument_bare, Value.bare_asDocument]
  refine ⟨whole, hwhole, fun limit hlimit => ⟨whole, ?_, ?_⟩⟩
  · rw [Value.excerpt_of_rendered hwhole, cutText_of_le hlimit]
  · rw [hroot]
    exact ⟨rfl, Value.asDocument_bare v, hbare, Value.equals_of_bare_eq h.wellFormed hbare⟩

/-- Escapes, a character beyond the basic plane, empty and nested parts, and keys out of order. -/
theorem Document.ofText_excerpt_of_nested :
    let v := Value.dict [(.str "z\"\\", .list [.null, .bool true, .int (-12), .list []]),
      (.str "", .dict [(.str "a\n", .str "\x01😀")])]
    v.Exact ∧ ∃ text, v.excerpt 100 = .ok text ∧ (ofText text).isValid = true ∧
      (ofText text).root = v.asDocument ∧ (ofText text).root.bare = v.bare ∧
      (ofText text).root.equals v = .ok true := by
  intro v
  have hint : (-12 : Int).natAbs < digitBound := lt_digitBound (by decide)
  have hv : v.Exact :=
    { shown := ⟨⟨_, rfl⟩, ⟨trivial, trivial, hint, trivial, trivial⟩, ⟨_, rfl⟩,
        ⟨⟨_, rfl⟩, trivial, trivial⟩, trivial⟩
      wellFormed := by simp [v, Value.dict, Value.list, Value.WellFormed, Value.WellFormedItems,
        Value.WellFormedEntries]
      noFloats := ⟨⟨trivial, trivial, trivial, trivial, trivial⟩, ⟨trivial, trivial⟩, trivial⟩ }
  obtain ⟨whole, hwhole, hback⟩ := Document.ofText_excerpt hv
  have hlength : v.rendered.map String.length = .ok 49 := by decide +kernel
  rw [hwhole] at hlength
  have hlimit : (whole.length : Int) ≤ 100 := by
    have hwhole : whole.length = 49 := Except.ok.inj hlength
    omega
  exact ⟨hv, hback 100 hlimit⟩

end Attest

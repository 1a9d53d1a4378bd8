import Attest.Proofs.Value.Equivalence
import Attest.Proofs.Value.Plain

/-!
# Parts of a document

A part of a value is the value itself, or what is reached from it by keys of objects and indexes of
arrays. Being a part of one document is the least property that holds of the document and goes over
to elements and entries, so whatever a computation preserves because it only ever goes down, it
preserves for parts, and parts inherit what goes over in this way.

## Main definitions

* `Value.Hereditary` — a property that goes over to elements and entries
* `Value.Part` — what is reached by keys and indexes
* `Value.JsonTree` — trees of the six JSON kinds

## Main results

* `Value.Hereditary.part` — parts have the hereditary properties of the whole
* `Value.Part.succeeds_kind` — every part of a JSON tree has a kind
* `Value.JsonTree.equals_ok` — JSON trees can be compared
-/

namespace Attest

namespace Value

/-- A property that goes over to the elements of arrays and to the values in objects. -/
structure Hereditary (P : Value → Prop) : Prop where
  item : ∀ {node form items v}, P (.array node form items) → v ∈ items → P v
  entry : ∀ {node form entries key v}, P (.object node form entries) → (key, v) ∈ entries → P v

theorem exists_of_lookup {key v : Value} : ∀ {entries : Entries}, lookup key entries = some v →
    ∃ (i : Nat) (k : Value), entries[i]? = some (k, v) ∧ sameKey key k = true
  | (k, w) :: rest, h => by
    rw [lookup] at h
    split at h
    · next hkey => exact ⟨0, k, by rw [← Option.some.inj h]; rfl, hkey⟩
    · obtain ⟨i, k', hi, hkey⟩ := exists_of_lookup h
      exact ⟨i + 1, k', hi, hkey⟩

theorem Hereditary.lookup {P : Value → Prop} (hP : Hereditary P) {node : NodeId}
    {form : ObjectForm} {entries : Entries} {key v : Value} (h : P (.object node form entries))
    (hv : Value.lookup key entries = some v) : P v := by
  obtain ⟨i, k, hi, _⟩ := exists_of_lookup hv
  exact hP.entry h (List.mem_of_getElem? hi)

theorem hereditary_plain (p : Int → Prop) : Hereditary (Plain p) where
  item h hv := plainItems_iff.mp h.items _ hv
  entry h he := (plainEntries_iff.mp h.entries _ he).2

/-- The parts of a value: itself, and what is reached from it by keys and indexes. -/
inductive Part (root : Value) : Value → Prop where
  | root : Part root root
  | item {node : NodeId} {form : ArrayForm} {items : List Value} {i : Nat} {v : Value}
      (h : Part root (.array node form items)) (hv : items[i]? = some v) : Part root v
  | entry {node : NodeId} {form : ObjectForm} {entries : Entries} {key v : Value}
      (h : Part root (.object node form entries)) (hv : (key, v) ∈ entries) : Part root v

theorem hereditary_part (root : Value) : Hereditary (Part root) where
  item h hv := by
    obtain ⟨i, hi⟩ := List.mem_iff_getElem?.mp hv
    exact h.item hi
  entry h he := h.entry he

/-- **Parts have the hereditary properties of the whole.** -/
theorem Hereditary.part {P : Value → Prop} (hP : Hereditary P) {root v : Value} (h : Part root v)
    (hroot : P root) : P v := by
  induction h with
  | root => exact hroot
  | item _ hv ih => exact hP.item ih (List.mem_of_getElem? hv)
  | entry _ he ih => exact hP.entry ih he

theorem hereditary_wellFormed : Hereditary WellFormed where
  item h hv := wellFormedItems_iff.mp h _ hv
  entry h he := (wellFormedEntries_iff.mp h.2 _ he).2

/-! ### JSON trees -/

mutual

/-- A tree of the six kinds of JSON. What numbers and keys it has does not matter. -/
def JsonTree : Value → Prop
  | .null | .bool _ | .int _ | .float _ | .str _ => True
  | .array _ _ items => JsonTreeItems items
  | .object _ _ entries => JsonTreeEntries entries
  | _ => False

def JsonTreeItems : List Value → Prop
  | [] => True
  | v :: rest => v.JsonTree ∧ JsonTreeItems rest

def JsonTreeEntries : Entries → Prop
  | [] => True
  | (_, v) :: rest => v.JsonTree ∧ JsonTreeEntries rest

end

theorem jsonTreeItems_iff {items : List Value} :
    JsonTreeItems items ↔ ∀ v ∈ items, v.JsonTree := by
  induction items with
  | nil => simp [JsonTreeItems]
  | cons v rest ih => simp [JsonTreeItems, ih]

theorem jsonTreeEntries_iff {entries : Entries} :
    JsonTreeEntries entries ↔ ∀ e ∈ entries, e.2.JsonTree := by
  induction entries with
  | nil => simp [JsonTreeEntries]
  | cons e rest ih =>
    obtain ⟨k, v⟩ := e
    simp [JsonTreeEntries, ih]

theorem hereditary_jsonTree : Hereditary JsonTree where
  item h hv := jsonTreeItems_iff.mp h _ hv
  entry h he := jsonTreeEntries_iff.mp h _ he

theorem JsonTree.succeeds_kind : ∀ {v : Value}, v.JsonTree → Succeeds v.kind
  | .null, _ | .bool _, _ | .int _, _ | .float _, _ | .str _, _ | .array .., _
  | .object .., _ => ⟨_, rfl⟩

/-- **Every part of a JSON tree has a kind.** -/
theorem Part.succeeds_kind {root v : Value} (h : Part root v) (hroot : root.JsonTree) :
    Succeeds v.kind :=
  (hereditary_jsonTree.part h hroot).succeeds_kind

theorem JsonTree.lookup {node : NodeId} {form : ObjectForm} {entries : Entries} {key v : Value}
    (h : (Value.object node form entries).JsonTree) (hv : Value.lookup key entries = some v) :
    v.JsonTree :=
  hereditary_jsonTree.lookup h hv

/-- **JSON trees can be compared.** Only what has no kind would be a fault. -/
theorem equals_ok :
    (∀ a b : Value, a.JsonTree → b.JsonTree → Succeeds (equals a b)) ∧
      (∀ xs ys : Entries, JsonTreeEntries xs → JsonTreeEntries ys →
        Succeeds (equalEntries xs ys)) ∧
      ∀ xs ys : List Value, JsonTreeItems xs → JsonTreeItems ys → Succeeds (equalItems xs ys) := by
  apply equals.mutual_induct
  case case1 | case2 | case3 => intros; exact ⟨_, by simp only [equals]; rfl⟩
  case case4 =>
    intro _ _ xs _ _ ys hlength ih ha hb
    rw [equals, if_pos hlength]
    exact ih ha hb
  case case5 =>
    intro _ _ xs _ _ ys hlength ha hb
    rw [equals, if_neg hlength]
    exact succeeds_ok _
  case case6 =>
    intro _ _ xs _ _ ys hkeys ih ha hb
    rw [equals, if_pos hkeys]
    exact ih ha hb
  case case7 =>
    intro _ _ xs _ _ ys hkeys ha hb
    rw [equals, if_neg hkeys]
    exact succeeds_ok _
  case case8 =>
    intro a b h1 h2 h3 h4 h5 ha hb
    rw [equals]
    · refine ha.succeeds_kind.bind fun kindA _ => hb.succeeds_kind.bind fun kindB _ => ?_
      split
      · exact succeeds_ok _
      · split <;> exact succeeds_ok _
    all_goals assumption
  case case9 =>
    intro x xs y ys ih ihs hx hy
    rw [equalItems]
    refine (ih hx.1 hy.1).bind fun r _ => ?_
    split
    · exact ihs hx.2 hy.2
    · exact succeeds_ok _
  case case10 =>
    intro xs ys h _ _
    rw [equalItems]
    · exact succeeds_ok _
    · assumption
  case case11 =>
    intro ys _ _
    rw [equalEntries]
    exact succeeds_ok _
  case case12 =>
    intro k v rest other w hw ih ihs hx hy
    have hother : (Value.object 0 .plain other).JsonTree := hy
    have hw' : w.JsonTree := hother.lookup hw
    rw [equalEntries, hw]
    refine (ih hx.1 hw').bind fun r _ => ?_
    split
    · exact ihs hx.2 hy
    · exact succeeds_ok _
  case case13 =>
    intro k v rest other hw _ _
    rw [equalEntries, hw]
    exact succeeds_ok _

theorem JsonTree.equals_ok {a b : Value} (ha : a.JsonTree) (hb : b.JsonTree) :
    Succeeds (equals a b) :=
  Value.equals_ok.1 a b ha hb

mutual

/-- What is plain is a JSON tree. -/
theorem Plain.jsonTree {p : Int → Prop} : ∀ {v : Value}, v.Plain p → v.JsonTree
  | .null, _ | .bool _, _ | .int _, _ | .float _, _ | .str _, _ => trivial
  | .array _ .list items, h => PlainItems.jsonTree (show PlainItems p items from h)
  | .object _ .plain entries, h => PlainEntries.jsonTree (show PlainEntries p entries from h)

theorem PlainItems.jsonTree {p : Int → Prop} : ∀ {items : List Value}, PlainItems p items →
    JsonTreeItems items
  | [], _ => trivial
  | _ :: _, h => ⟨h.1.jsonTree, PlainItems.jsonTree h.2⟩

theorem PlainEntries.jsonTree {p : Int → Prop} : ∀ {entries : Entries}, PlainEntries p entries →
    JsonTreeEntries entries
  | [], _ => trivial
  | (_, _) :: _, h => ⟨h.2.1.jsonTree, PlainEntries.jsonTree h.2.2⟩

end

theorem Plain.equals_ok {p q : Int → Prop} {a b : Value} (ha : a.Plain p) (hb : b.Plain q) :
    Succeeds (equals a b) :=
  ha.jsonTree.equals_ok hb.jsonTree

mutual

/-- What is well-formed is a JSON tree. -/
theorem WellFormed.jsonTree : ∀ {v : Value}, v.WellFormed → v.JsonTree
  | .null, _ | .bool _, _ | .int _, _ | .float _, _ | .str _, _ => trivial
  | .array _ _ items, h => WellFormedItems.jsonTree (show WellFormedItems items from h)
  | .object _ _ _, h => WellFormedEntries.jsonTree h.2

theorem WellFormedItems.jsonTree : ∀ {items : List Value}, WellFormedItems items →
    JsonTreeItems items
  | [], _ => trivial
  | _ :: _, h => ⟨h.1.jsonTree, WellFormedItems.jsonTree h.2⟩

theorem WellFormedEntries.jsonTree : ∀ {entries : Entries}, WellFormedEntries entries →
    JsonTreeEntries entries
  | [], _ => trivial
  | (_, _) :: _, h => ⟨h.2.1.jsonTree, WellFormedEntries.jsonTree h.2.2⟩

end

end Value

end Attest

import Attest.Proofs.Value.Equivalence

/-!
# Trees without identities

Identities tell apart what is equal, so two values may be one tree and still differ. The bare tree
of a value is the value with the identity 0 on all of its nodes. Numbering a tree gives it other
identities and changes nothing else, and neither its content nor its well-formedness is in them.

## Main definitions

* `Value.bare` — a value without the identities of its nodes

## Main results

* `Value.bare_asDocument` — numbering the nodes keeps the bare tree
* `Value.asDocument_bare` — and it does not depend on the identities before
* `Value.content_bare`, `Value.wellFormed_bare_iff` — what does not depend on them either
-/

namespace Attest

namespace Value

mutual

/-- A value with one identity for all of its nodes. -/
def bare : Value → Value
  | .array _ form items => .array 0 form (bareItems items)
  | .object _ form entries => .object 0 form (bareEntries entries)
  | v => v

def bareItems : List Value → List Value
  | [] => []
  | v :: rest => v.bare :: bareItems rest

def bareEntries : Entries → Entries
  | [] => []
  | (k, v) :: rest => (k, v.bare) :: bareEntries rest

end

theorem fst_bareEntries : ∀ entries : Entries,
    (bareEntries entries).map Prod.fst = entries.map Prod.fst
  | [] => rfl
  | (k, _) :: rest => congrArg (k :: ·) (fst_bareEntries rest)

/-! ### Numbering nodes -/

mutual

theorem bare_numbered : ∀ (next : NodeId) (v : Value), (v.numbered next).1.bare = v.bare
  | _, .array _ .tuple [] => rfl
  | next, .array _ .list items => by
    rw [numbered, bare, bare, bareItems_numbered]
    rintro ⟨⟩
  | next, .array _ .tuple (v :: rest) => by
    rw [numbered, bare, bare, bareItems_numbered]
    rintro _ ⟨⟩
  | next, .object _ form entries => by
    rw [numbered, bare, bare, bareEntries_numbered]
  | _, .null | _, .bool _ | _, .int _ | _, .float _ | _, .str _ | _, .set _ | _, .bytes _
  | _, .date _ | _, .timestamp _ | _, .pattern .. | _, .missing => rfl

theorem bareItems_numbered : ∀ (next : NodeId) (items : List Value),
    bareItems (numberedItems next items).1 = bareItems items
  | _, [] => rfl
  | next, v :: rest => by
    rw [numberedItems, bareItems, bareItems, bare_numbered, bareItems_numbered]

theorem bareEntries_numbered : ∀ (next : NodeId) (entries : Entries),
    bareEntries (numberedEntries next entries).1 = bareEntries entries
  | _, [] => rfl
  | next, (k, v) :: rest => by
    rw [numberedEntries, bareEntries, bareEntries, bare_numbered, bareEntries_numbered]

end

mutual

theorem numbered_bare : ∀ (next : NodeId) (v : Value), v.bare.numbered next = v.numbered next
  | _, .array _ .tuple [] => rfl
  | next, .array _ .list items => by
    rw [bare, numbered, numbered, numberedItems_bare]
    all_goals rintro ⟨⟩
  | next, .array _ .tuple (v :: rest) => by
    have hitems := numberedItems_bare (next + 1) (v :: rest)
    rw [bareItems] at hitems
    rw [bare, bareItems, numbered, numbered, hitems]
    all_goals rintro _ ⟨⟩
  | next, .object _ form entries => by
    rw [bare, numbered, numbered, numberedEntries_bare]
  | _, .null | _, .bool _ | _, .int _ | _, .float _ | _, .str _ | _, .set _ | _, .bytes _
  | _, .date _ | _, .timestamp _ | _, .pattern .. | _, .missing => rfl

theorem numberedItems_bare : ∀ (next : NodeId) (items : List Value),
    numberedItems next (bareItems items) = numberedItems next items
  | _, [] => rfl
  | next, v :: rest => by
    simp only [bareItems, numberedItems, numbered_bare, numberedItems_bare]

theorem numberedEntries_bare : ∀ (next : NodeId) (entries : Entries),
    numberedEntries next (bareEntries entries) = numberedEntries next entries
  | _, [] => rfl
  | next, (k, v) :: rest => by
    simp only [bareEntries, numberedEntries, numbered_bare, numberedEntries_bare]

end

/-- Numbering the nodes keeps the bare tree. -/
theorem bare_asDocument (v : Value) : v.asDocument.bare = v.bare := bare_numbered 1 v

theorem asDocument_bare (v : Value) : v.bare.asDocument = v.asDocument :=
  congrArg Prod.fst (numbered_bare 1 v)

/-! ### Contents -/

mutual

theorem content_bare : ∀ v : Value, v.bare.content = v.content
  | .array _ _ items => congrArg Content.items (contents_bare items)
  | .object _ _ entries => congrArg Content.fields (contentAt_bare entries)
  | .null | .bool _ | .int _ | .float _ | .str _ | .set _ | .bytes _ | .date _ | .timestamp _
  | .pattern .. | .missing => rfl

theorem contents_bare : ∀ items : List Value, contents (bareItems items) = contents items
  | [] => rfl
  | v :: rest => congrArg₂ List.cons (content_bare v) (contents_bare rest)

theorem contentAt_bare : ∀ entries : Entries, contentAt (bareEntries entries) = contentAt entries
  | [] => rfl
  | (k, v) :: rest => by
    funext name
    rw [bareEntries, contentAt, contentAt, content_bare, contentAt_bare]

end

mutual

theorem wellFormed_bare_iff : ∀ v : Value, v.bare.WellFormed ↔ v.WellFormed
  | .array _ _ items => wellFormedItems_bare_iff items
  | .object _ _ entries => by
    rw [bare, WellFormed, WellFormed, fst_bareEntries, wellFormedEntries_bare_iff]
  | .null | .bool _ | .int _ | .float _ | .str _ | .set _ | .bytes _ | .date _ | .timestamp _
  | .pattern .. | .missing => Iff.rfl

theorem wellFormedItems_bare_iff : ∀ items : List Value,
    WellFormedItems (bareItems items) ↔ WellFormedItems items
  | [] => Iff.rfl
  | v :: rest => and_congr (wellFormed_bare_iff v) (wellFormedItems_bare_iff rest)

theorem wellFormedEntries_bare_iff : ∀ entries : Entries,
    WellFormedEntries (bareEntries entries) ↔ WellFormedEntries entries
  | [] => Iff.rfl
  | (_, v) :: rest =>
    and_congr Iff.rfl (and_congr (wellFormed_bare_iff v) (wellFormedEntries_bare_iff rest))

end

/-- **Values of one bare tree are equal.** -/
theorem equals_of_bare_eq {v w : Value} (hw : w.WellFormed) (h : v.bare = w.bare) :
    equals v w = .ok true := by
  have hv : v.WellFormed := by rwa [← wellFormed_bare_iff, h, wellFormed_bare_iff]
  rw [equals_eq_true_iff hv hw, ← content_bare, h, content_bare]

end Value

end Attest

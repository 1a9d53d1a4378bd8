import Mathlib.Data.List.Nodup
import Mathlib.Data.List.Range
import Attest.Chain.Union
import Attest.Proofs.Value.Part

/-!
# Positions in a document

A position is the keys and indexes on the way from the root of a document. Documents that are equal
have the same positions, and equal values at each of them; this is what a chain can go by, since the
identities of nodes are numbers that two documents do not have in common.

Identities do their work within one document. If no node stands at two positions, then two nodes are
one exactly if their positions are, and positions can be carried over to another document where
identities cannot.

## Main definitions

* `Hop`, `Value.part?`, `Value.at?` — one step down, and the value at a position
* `Value.Unshared` — no node stands at two positions
* `Value.nodes` — the nodes of a tree, in pre-order

## Main results

* `Value.content_at?` — values at one position of equal documents are equal
* `Value.unshared_of_nodup` — trees without a repeated node are unshared
* `Value.unshared_asDocument` — so is every document whose nodes were numbered
-/

namespace Attest

/-- One step down from a value: to an entry of an object or to an element of an array. -/
inductive Hop where
  | key (name : String)
  | index (i : Nat)
  deriving DecidableEq, Repr

namespace Value

/-- What one step down leads to. -/
def part? : Value → Hop → Option Value
  | .array _ _ items, .index i => items[i]?
  | .object _ _ entries, .key name => field? name entries
  | _, _ => none

/-- The value at a position. -/
def at? (v : Value) : List Hop → Option Value
  | [] => some v
  | hop :: rest => (v.part? hop).bind fun w => w.at? rest

/-- No array and no object stands at two positions. -/
def Unshared (v : Value) : Prop :=
  ∀ p q a b node, v.at? p = some a → v.at? q = some b → a.node? = some node →
    b.node? = some node → p = q

theorem at?_append_singleton {v w : Value} {p : List Hop} {hop : Hop} (h : v.at? p = some w) :
    v.at? (p ++ [hop]) = w.part? hop := by
  induction p generalizing v with
  | nil =>
    obtain rfl := Option.some.inj h
    simp [at?]
  | cons first rest ih =>
    obtain ⟨x, hx, hrest⟩ := Option.bind_eq_some_iff.mp h
    rw [List.cons_append, at?, hx, Option.bind_some]
    exact ih hrest

/-! ### Parts of well-formed and of equal values -/

theorem WellFormed.part? {v w : Value} {hop : Hop} (h : v.WellFormed)
    (hw : v.part? hop = some w) : w.WellFormed := by
  cases v with
  | array node form items =>
    cases hop with
    | index i => exact hereditary_wellFormed.item h (List.mem_of_getElem? hw)
    | key name => cases hw
  | object node form entries =>
    cases hop with
    | key name => exact hereditary_wellFormed.lookup h hw
    | index i => cases hw
  | _ => cases hw

theorem WellFormed.at? {w : Value} : ∀ {p : List Hop} {v : Value}, v.WellFormed →
    v.at? p = some w → w.WellFormed
  | [], _, h, hw => Option.some.inj hw ▸ h
  | _ :: _, _, h, hw =>
    let ⟨_, hx, hrest⟩ := Option.bind_eq_some_iff.mp hw
    WellFormed.at? (h.part? hx) hrest

theorem contents_eq_map (items : List Value) : contents items = items.map content := by
  induction items with
  | nil => rfl
  | cons v rest ih => rw [contents, ih, List.map_cons]

/-- The content of a value determines that of what is one step down. -/
theorem content_part? {v w : Value} (hv : v.WellFormed) (hw : w.WellFormed)
    (h : v.content = w.content) (hop : Hop) :
    (v.part? hop).map content = (w.part? hop).map content := by
  have hkind : v.content.kind = w.content.kind := congrArg Content.kind h
  cases v with
  | array node form items =>
    cases w with
    | array node' form' items' =>
      cases hop with
      | index i =>
        have hitems : items.map content = items'.map content := by
          rw [← contents_eq_map, ← contents_eq_map]
          exact Content.items.inj h
        simp only [part?, ← List.getElem?_map, hitems]
      | key name => rfl
    | set | bytes | date | timestamp | pattern | missing => exact hw.elim
    | _ => cases hkind
  | object node form entries =>
    cases w with
    | object node' form' entries' =>
      cases hop with
      | key name =>
        have hentries : contentAt entries name = contentAt entries' name :=
          congrFun (Content.fields.inj h) name
        rwa [contentAt_eq, contentAt_eq] at hentries
      | index i => rfl
    | set | bytes | date | timestamp | pattern | missing => exact hw.elim
    | _ => cases hkind
  | set | bytes | date | timestamp | pattern | missing => exact hv.elim
  | null | bool | int | float | str =>
    cases w with
    | array | object => cases hkind
    | _ => rfl

/-- **Equal documents have the same positions, and equal values at each of them.** -/
theorem content_at? : ∀ {p : List Hop} {v w : Value}, v.WellFormed → w.WellFormed →
    v.content = w.content → (v.at? p).map content = (w.at? p).map content
  | [], _, _, _, _, h => congrArg some h
  | hop :: rest, v, w, hv, hw, h => by
    have hpart := content_part? hv hw h hop
    rw [at?, at?]
    cases hx : v.part? hop with
    | none =>
      rw [hx] at hpart
      rw [Option.map_eq_none_iff.mp hpart.symm]
    | some x =>
      rw [hx] at hpart
      obtain ⟨y, hy, hxy⟩ := Option.map_eq_some_iff.mp hpart.symm
      rw [hy]
      exact content_at? (hv.part? hx) (hw.part? hy) hxy.symm

/-! ### Equal values are shown alike -/

theorem overflowBound_le_digitBound : Double.overflowBound ≤ digitBound := by
  have hbase (k : Nat) : 2 ^ k ≤ Nat.pow 10 k := Nat.pow_le_pow_left (by decide) k
  have hbound (k : Nat) (hk : k ≤ digitLimit) : Nat.pow 10 k ≤ digitBound :=
    Nat.pow_le_pow_right (by decide) hk
  rw [Double.overflowBound]
  generalize 2 ^ 970 = w
  exact (Nat.sub_le _ w).trans ((hbase 1024).trans (hbound 1024 (by decide)))

/-- An integer within the range has a text, and one beyond it only equals itself. -/
theorem natAbs_lt_of_magnitude {a : Int ⊕ Double} {m : Int}
    (h : magnitude a = magnitude (.inl m)) (ha : ∀ n, a = .inl n → n.natAbs < digitBound) :
    m.natAbs < digitBound := by
  by_cases hm : m.natAbs < Double.overflowBound
  · exact Nat.lt_of_lt_of_le hm overflowBound_le_digitBound
  · have hnone : toDouble? (.inl m) = none := Double.ofInt?_eq_none_iff.mpr (Nat.le_of_not_lt hm)
    obtain ⟨_, hinl, _, hmagnitude⟩ := exists_of_toDouble?_eq_none hnone
    obtain rfl := Sum.inl.inj hinl
    rw [hmagnitude] at h
    cases hx : toDouble? a with
    | some x =>
      rw [magnitude_of_toDouble? hx] at h
      cases h
    | none =>
      obtain ⟨n, rfl, _, hn⟩ := exists_of_toDouble?_eq_none hx
      rw [hn] at h
      rw [← Sum.inl.inj h]
      exact ha n rfl

theorem lookup_of_mem {s : String} {v : Value} : ∀ {entries : Entries},
    (entries.map Prod.fst).Nodup → (.str s, v) ∈ entries → lookup (.str s) entries = some v
  | (k, w) :: rest, hnodup, hmem => by
    obtain ⟨hk, hnodup⟩ := List.nodup_cons.mp hnodup
    rw [lookup]
    rcases List.mem_cons.mp hmem with heq | htail
    · obtain ⟨rfl, rfl⟩ := Prod.mk.inj heq
      rw [if_pos (sameKey_str_iff.mpr rfl)]
    · rw [if_neg]
      · exact lookup_of_mem hnodup htail
      · intro hkey
        have hs : Value.str s ∈ rest.map Prod.fst := List.mem_map_of_mem htail
        rw [sameKey_str_iff.mp hkey] at hk
        exact hk hs

theorem LegibleEntries.lookup {key v : Value} : ∀ {entries : Entries}, LegibleEntries entries →
    Value.lookup key entries = some v → v.Legible
  | (k, w) :: rest, h, hv => by
    rw [Value.lookup] at hv
    split at hv
    · exact Option.some.inj hv ▸ h.2.1
    · exact h.2.2.lookup hv

mutual

theorem Legible.of_content_eq : ∀ {w v : Value}, v.WellFormed → w.WellFormed →
    v.content = w.content → v.Legible → w.Legible
  | .null, _, _, _, _, _ | .bool _, _, _, _, _, _ | .float _, _, _, _, _, _
  | .str _, _, _, _, _, _ => trivial
  | .int m, v, hv, _, h, hl => by
    cases v with
    | int n => exact natAbs_lt_of_magnitude (Content.number.inj h) fun k hk => Sum.inl.inj hk ▸ hl
    | float x => exact natAbs_lt_of_magnitude (Content.number.inj h) fun k hk => nomatch hk
    | set | bytes | date | timestamp | pattern | missing => exact hv.elim
    | _ => cases h
  | .array _ _ ys, v, hv, hw, h, hl => by
    cases v with
    | array node form xs => exact LegibleItems.of_contents_eq hv hw (Content.items.inj h) hl
    | set | bytes | date | timestamp | pattern | missing => exact hv.elim
    | _ => cases h
  | .object _ _ ys, v, hv, hw, h, hl => by
    cases v with
    | object node form xs =>
      refine LegibleEntries.of_contents_eq hw.2 fun s y hy => ?_
      have hcontent : (Value.lookup (.str s) xs).map content = some y.content := by
        rw [← contentAt_eq, Content.fields.inj h, contentAt_eq, lookup_of_mem hw.1 hy]
        rfl
      obtain ⟨x, hx, hxy⟩ := Option.map_eq_some_iff.mp hcontent
      exact ⟨x, hv.2.lookup hx, hxy, LegibleEntries.lookup hl hx⟩
    | set | bytes | date | timestamp | pattern | missing => exact hv.elim
    | _ => cases h

theorem LegibleItems.of_contents_eq : ∀ {ys xs : List Value}, WellFormedItems xs →
    WellFormedItems ys → contents xs = contents ys → LegibleItems xs → LegibleItems ys
  | [], _, _, _, _, _ => trivial
  | y :: ys, x :: xs, hx, hy, h, hl => by
    obtain ⟨hhead, hrest⟩ := List.cons.inj h
    exact ⟨hl.1.of_content_eq hx.1 hy.1 hhead, LegibleItems.of_contents_eq hx.2 hy.2 hrest hl.2⟩

/-- The entries of an object can be shown if each of them has the content of something that can. -/
theorem LegibleEntries.of_contents_eq : ∀ {ys : Entries}, WellFormedEntries ys →
    (∀ s y, (.str s, y) ∈ ys → ∃ x : Value, x.WellFormed ∧ x.content = y.content ∧ x.Legible) →
      LegibleEntries ys
  | [], _, _ => trivial
  | (k, y) :: rest, ⟨⟨s, hs⟩, hy, hrest⟩, h => by
    subst hs
    obtain ⟨x, hx, hxy, hl⟩ := h s y List.mem_cons_self
    refine ⟨trivial, hl.of_content_eq hx hy hxy, ?_⟩
    exact LegibleEntries.of_contents_eq hrest fun t z hz => h t z (List.mem_cons_of_mem _ hz)

end

/-! ### Nodes -/

mutual

/-- The nodes of a tree, in pre-order. -/
def nodes : Value → List NodeId
  | .array node _ items => node :: nodesOfItems items
  | .object node _ entries => node :: nodesOfEntries entries
  | _ => []

def nodesOfItems : List Value → List NodeId
  | [] => []
  | v :: rest => v.nodes ++ nodesOfItems rest

def nodesOfEntries : Entries → List NodeId
  | [] => []
  | (_, v) :: rest => v.nodes ++ nodesOfEntries rest

end

/-- The elements of an array, or the values of an object. -/
def parts : Value → List Value
  | .array _ _ items => items
  | .object _ _ entries => entries.map Prod.snd
  | _ => []

theorem nodesOfItems_eq (items : List Value) : nodesOfItems items = items.flatMap nodes := by
  induction items with
  | nil => rfl
  | cons v rest ih => rw [nodesOfItems, ih, List.flatMap_cons]

theorem nodesOfEntries_eq (entries : Entries) :
    nodesOfEntries entries = (entries.map Prod.snd).flatMap nodes := by
  induction entries with
  | nil => rfl
  | cons e rest ih =>
    obtain ⟨k, v⟩ := e
    rw [nodesOfEntries, ih, List.map_cons, List.flatMap_cons]

theorem nodes_eq (v : Value) : v.nodes = v.node?.toList ++ v.parts.flatMap nodes := by
  cases v with
  | array node form items => exact congrArg (node :: ·) (nodesOfItems_eq items)
  | object node form entries => exact congrArg (node :: ·) (nodesOfEntries_eq entries)
  | _ => rfl

/-- Different steps lead to different places among the parts. -/
theorem exists_places {v a b : Value} {hop hop' : Hop} (ha : v.part? hop = some a)
    (hb : v.part? hop' = some b) :
    ∃ i j : Nat, v.parts[i]? = some a ∧ v.parts[j]? = some b ∧ (hop ≠ hop' → i ≠ j) := by
  cases v with
  | array node form items =>
    cases hop with
    | key => cases ha
    | index i =>
      cases hop' with
      | key => cases hb
      | index j => exact ⟨i, j, ha, hb, fun hne hij => hne (congrArg Hop.index hij)⟩
  | object node form entries =>
    cases hop with
    | index => cases ha
    | key name =>
      cases hop' with
      | index => cases hb
      | key name' =>
        obtain ⟨i, k, hi, hk⟩ := exists_of_lookup ha
        obtain ⟨j, k', hj, hk'⟩ := exists_of_lookup hb
        refine ⟨i, j, by simp [parts, hi], by simp [parts, hj], fun hne hij => hne ?_⟩
        rw [hij, hj] at hi
        obtain ⟨rfl, -⟩ := Prod.mk.inj (Option.some.inj hi)
        rw [sameKey_str_iff] at hk hk'
        exact congrArg Hop.key (Value.str.inj (hk.symm.trans hk'))
  | _ => cases ha

theorem mem_parts {v w : Value} {hop : Hop} (h : v.part? hop = some w) : w ∈ v.parts := by
  obtain ⟨i, _, hi, _⟩ := exists_places h h
  exact List.mem_of_getElem? hi

theorem mem_nodes_of_at? {a : Value} {node : NodeId} (ha : a.node? = some node) :
    ∀ {p : List Hop} {v : Value}, v.at? p = some a → node ∈ v.nodes
  | [], v, h => by
    rw [nodes_eq, Option.some.inj h, ha]
    exact List.mem_cons_self
  | _ :: _, v, h => by
    obtain ⟨x, hx, hrest⟩ := Option.bind_eq_some_iff.mp h
    rw [nodes_eq]
    exact List.mem_append_right _ (List.mem_flatMap.mpr ⟨x, mem_parts hx, mem_nodes_of_at? ha hrest⟩)

/-- **A tree without a repeated node is unshared.** -/
theorem unshared_of_nodup {v : Value} (h : v.nodes.Nodup) : v.Unshared := by
  intro p
  induction p generalizing v with
  | nil =>
    intro q a b node ha hb hna hnb
    obtain rfl := Option.some.inj ha
    cases q with
    | nil => rfl
    | cons hop q =>
      obtain ⟨x, hx, hrest⟩ := Option.bind_eq_some_iff.mp hb
      rw [nodes_eq, hna] at h
      have hbelow := List.mem_flatMap.mpr ⟨x, mem_parts hx, mem_nodes_of_at? hnb hrest⟩
      exact absurd hbelow (List.nodup_cons.mp h).1
  | cons hop p ih =>
    intro q a b node ha hb hna hnb
    obtain ⟨x, hx, ha⟩ := Option.bind_eq_some_iff.mp ha
    rw [nodes_eq] at h
    cases q with
    | nil =>
      obtain rfl := Option.some.inj hb
      rw [hnb] at h
      have hbelow := List.mem_flatMap.mpr ⟨x, mem_parts hx, mem_nodes_of_at? hna ha⟩
      exact absurd hbelow (List.nodup_cons.mp h).1
    | cons hop' q =>
      obtain ⟨y, hy, hb⟩ := Option.bind_eq_some_iff.mp hb
      obtain ⟨hparts, hdisjoint⟩ := List.nodup_flatMap.mp (List.nodup_append.mp h).2.1
      by_cases hsame : hop = hop'
      · subst hsame
        obtain rfl := Option.some.inj (hx.symm.trans hy)
        exact congrArg _ (ih (hparts x (mem_parts hx)) q a b node ha hb hna hnb)
      · -- two parts at different places have no node in common
        obtain ⟨i, j, hi, hj, hne⟩ := exists_places hx hy
        have hcommon : ∀ {i j : Nat} {x y : Value}, v.parts[i]? = some x → v.parts[j]? = some y →
            i < j → node ∈ x.nodes → node ∈ y.nodes → False := by
          intro i j x y hi hj hlt hxn hyn
          obtain ⟨hil, rfl⟩ := List.getElem?_eq_some_iff.mp hi
          obtain ⟨hjl, rfl⟩ := List.getElem?_eq_some_iff.mp hj
          exact List.pairwise_iff_getElem.mp hdisjoint i j hil hjl hlt hxn hyn
        have hxn := mem_nodes_of_at? hna ha
        have hyn := mem_nodes_of_at? hnb hb
        rcases Nat.lt_or_gt_of_ne (hne hsame) with hlt | hlt
        · exact (hcommon hi hj hlt hxn hyn).elim
        · exact (hcommon hj hi hlt hyn hxn).elim

/-! ### Numbered trees -/

mutual

/-- Numbering gives the nodes of a tree consecutive numbers. -/
theorem nodes_numbered {p : Int → Prop} : ∀ {v : Value} (next : NodeId), v.Plain p →
    ∃ count, (v.numbered next).2 = next + count ∧
      (v.numbered next).1.nodes = List.range' next count
  | .null, _, _ | .bool _, _, _ | .int _, _, _ | .float _, _, _ | .str _, _, _ => ⟨0, rfl, rfl⟩
  | .array _ .list items, next, h => by
    obtain ⟨count, hnext, hnodes⟩ := nodes_numberedItems (next + 1) (show PlainItems p items from h)
    rw [numbered]
    · refine ⟨1 + count, hnext.trans (Nat.add_assoc ..), ?_⟩
      rw [nodes, hnodes, Nat.add_comm 1 count, List.range'_succ]
    · rintro ⟨⟩
  | .object _ .plain entries, next, h => by
    obtain ⟨count, hnext, hnodes⟩ :=
      nodes_numberedEntries (next + 1) (show PlainEntries p entries from h)
    rw [numbered]
    refine ⟨1 + count, hnext.trans (Nat.add_assoc ..), ?_⟩
    rw [nodes, hnodes, Nat.add_comm 1 count, List.range'_succ]

theorem nodes_numberedItems {p : Int → Prop} : ∀ {items : List Value} (next : NodeId),
    PlainItems p items → ∃ count, (numberedItems next items).2 = next + count ∧
      nodesOfItems (numberedItems next items).1 = List.range' next count
  | [], _, _ => ⟨0, rfl, rfl⟩
  | v :: rest, next, h => by
    obtain ⟨count, hnext, hnodes⟩ := nodes_numbered next h.1
    obtain ⟨count', hnext', hnodes'⟩ := nodes_numberedItems (v.numbered next).2 h.2
    rw [numberedItems]
    refine ⟨count + count', hnext'.trans (hnext ▸ Nat.add_assoc ..), ?_⟩
    rw [nodesOfItems, hnodes, hnodes', hnext, List.range'_append_1]

theorem nodes_numberedEntries {p : Int → Prop} : ∀ {entries : Entries} (next : NodeId),
    PlainEntries p entries → ∃ count, (numberedEntries next entries).2 = next + count ∧
      nodesOfEntries (numberedEntries next entries).1 = List.range' next count
  | [], _, _ => ⟨0, rfl, rfl⟩
  | (_, v) :: rest, next, h => by
    obtain ⟨count, hnext, hnodes⟩ := nodes_numbered next h.2.1
    obtain ⟨count', hnext', hnodes'⟩ := nodes_numberedEntries (v.numbered next).2 h.2.2
    rw [numberedEntries]
    refine ⟨count + count', hnext'.trans (hnext ▸ Nat.add_assoc ..), ?_⟩
    rw [nodesOfEntries, hnodes, hnodes', hnext, List.range'_append_1]

end

/-- **A document whose nodes were numbered is unshared.** -/
theorem unshared_asDocument {v : Value} (h : v.IsJson) : v.asDocument.Unshared := by
  obtain ⟨count, _, hnodes⟩ := nodes_numbered 1 h
  refine unshared_of_nodup ?_
  rw [asDocument, hnodes]
  exact List.nodup_range'

end Value

end Attest

import Attest.Proofs.Value.Equivalence
import Attest.Proofs.Value.Sorting

/-!
# Trees up to the order of their keys

Two trees are the same up to the order of keys if one becomes the other when the entries of its
objects, at any depth, change their places. Lists keep their order, and atoms stay what they are: a
truth value, a number and a string are never the same.

Every such tree has an arrangement in which all entries stand in the order of their keys. Where no
key is there twice there is only one such order, so that two trees are the same up to the order of
keys iff they have the same arrangement.

## Main definitions

* `Value.Reordered` — two trees that are the same up to the order of keys
* `Value.inOrder`, `Value.arranged` — entries, and a tree, in the order of keys

## Main results

* `Value.sortEntries_congr` — the order before sorting does not matter
* `Value.reordered_iff_arranged_eq` — trees are the same up to the order of keys iff their
  arrangements are equal
-/

namespace Attest

namespace Value

/-! ### Trees up to the order of keys -/

mutual

/-- The second tree is the first one with the entries of its objects in some order. Identities of
nodes do not count. -/
def Reordered : Value → Value → Prop
  | .array _ form items, w => ∃ node others, w = .array node form others ∧
      ReorderedItems items others
  | .object _ form entries, w => ∃ node others, w = .object node form others ∧
      ReorderedEntries entries others
  | v, w => w = v

/-- Lists are compared element by element. -/
def ReorderedItems : List Value → List Value → Prop
  | [], others => others = []
  | v :: rest, others => ∃ w more, others = w :: more ∧ v.Reordered w ∧ ReorderedItems rest more

/-- An entry may stand anywhere among the others. -/
def ReorderedEntries : Entries → Entries → Prop
  | [], others => others = []
  | (k, v) :: rest, others => ∃ w before after, others = before ++ (k, w) :: after ∧
      v.Reordered w ∧ ReorderedEntries rest (before ++ after)

end

/-- Where the keys stand in one order already, the values are compared one by one. -/
theorem reorderedEntries_iff_forall₂ {entries others : Entries}
    (hkeys : entries.map Prod.fst = others.map Prod.fst) (hnodup : (entries.map Prod.fst).Nodup) :
    ReorderedEntries entries others ↔
      List.Forall₂ (fun e o => e.2.Reordered o.2) entries others := by
  induction entries generalizing others with
  | nil =>
    obtain rfl := List.map_eq_nil_iff.mp hkeys.symm
    exact iff_of_true rfl .nil
  | cons e rest ih =>
    obtain ⟨k, v⟩ := e
    cases others with
    | nil => cases hkeys
    | cons o more =>
      obtain ⟨k', w⟩ := o
      obtain ⟨rfl, hrest⟩ := List.cons.inj hkeys
      obtain ⟨hnot, hnodup⟩ := List.nodup_cons.mp hnodup
      rw [ReorderedEntries, List.forall₂_cons, ← ih hrest hnodup]
      constructor
      · rintro ⟨w', before, after, hsplit, hhead, htail⟩
        cases before with
        | nil =>
          obtain ⟨hentry, rfl⟩ := List.cons.inj hsplit
          obtain ⟨-, rfl⟩ := Prod.mk.inj hentry
          exact ⟨hhead, htail⟩
        | cons o before =>
          obtain ⟨-, rfl⟩ := List.cons.inj hsplit
          refine absurd ?_ hnot
          show k ∈ rest.map Prod.fst
          have hmem : k ∈ (before ++ (k, w') :: after).map Prod.fst := by simp
          exact hrest ▸ hmem
      · rintro ⟨hhead, htail⟩
        exact ⟨w, [], more, rfl, hhead, htail⟩

theorem reorderedItems_iff_forall₂ {items others : List Value} :
    ReorderedItems items others ↔ List.Forall₂ Reordered items others := by
  induction items generalizing others with
  | nil => rw [ReorderedItems, List.forall₂_nil_left_iff]
  | cons v rest ih =>
    rw [ReorderedItems, List.forall₂_cons_left_iff]
    simp only [ih]
    constructor
    · rintro ⟨w, more, rfl, hhead, htail⟩
      exact ⟨w, more, hhead, htail, rfl⟩
    · rintro ⟨w, more, hhead, htail, rfl⟩
      exact ⟨w, more, rfl, hhead, htail⟩

theorem reordered_list_iff {items others : List Value} :
    (list items).Reordered (list others) ↔ List.Forall₂ Reordered items others := by
  rw [list, list, Reordered, ← reorderedItems_iff_forall₂]
  constructor
  · rintro ⟨node, others', heq, h⟩
    obtain ⟨-, -, rfl⟩ := Value.array.inj heq
    exact h
  · exact fun h => ⟨_, _, rfl, h⟩

theorem reordered_dict_iff {entries others : Entries} :
    (dict entries).Reordered (dict others) ↔ ReorderedEntries entries others := by
  rw [dict, dict, Reordered]
  constructor
  · rintro ⟨node, others', heq, h⟩
    obtain ⟨-, -, rfl⟩ := Value.object.inj heq
    exact h
  · exact fun h => ⟨_, _, rfl, h⟩

/-! ### The order of keys -/

section Order

variable {α : Type} {e f g : Value × α} {entries others sorted result : List (Value × α)}

/-- Entries in the order of their keys, if these have one. -/
def inOrder (entries : List (Value × α)) : List (Value × α) :=
  (sortEntries entries).toOption.getD entries

/-- The key of the first entry comes before that of the second one. -/
def Before (e f : Value × α) : Prop := compareKeys? e.1 f.1 = some .lt

/-- Keys that are names, none of them twice. -/
structure UniqueNames (keys : List Value) : Prop where
  names : ∀ k ∈ keys, ∃ s, k = .str s
  nodup : keys.Nodup

theorem UniqueNames.perm {keys keys' : List Value} (h : UniqueNames keys)
    (hperm : keys'.Perm keys) : UniqueNames keys' where
  names := fun k hk => h.names k (hperm.mem_iff.mp hk)
  nodup := hperm.nodup_iff.mpr h.nodup

theorem before_iff {s t : String} (he : e.1 = .str s) (hf : f.1 = .str t) :
    Before e f ↔ compare s t = .lt := by
  rw [Before, he, hf, compareKeys?, Option.some.injEq]

theorem Before.trans (hef : Before e f) (hfg : Before f g)
    (hnames : ∀ o ∈ [e, f, g], ∃ s, o.1 = .str s) : Before e g := by
  obtain ⟨⟨s, hs⟩, ⟨t, ht⟩, ⟨u, hu⟩, -⟩ := by simpa only [List.forall_mem_cons] using hnames
  rw [before_iff hs ht] at hef
  rw [before_iff ht hu] at hfg
  rw [before_iff hs hu]
  exact Std.TransCmp.lt_trans hef hfg

/-- An entry that is put in its place keeps the order. -/
theorem pairwise_placeEntry (hnames : UniqueNames ((e :: sorted).map Prod.fst))
    (hsorted : sorted.Pairwise Before) (h : placeEntry e sorted = .ok result) :
    result.Pairwise Before := by
  induction sorted generalizing result with
  | nil =>
    cases h
    exact List.pairwise_singleton ..
  | cons other rest ih =>
    obtain ⟨hother, hrest⟩ := List.pairwise_cons.mp hsorted
    have hname : ∀ o ∈ e :: other :: rest, ∃ s, o.1 = .str s := fun o ho =>
      hnames.names o.1 (List.mem_map_of_mem ho)
    obtain ⟨s, hs⟩ := hname e List.mem_cons_self
    obtain ⟨t, ht⟩ := hname other (List.mem_cons_of_mem _ List.mem_cons_self)
    have hne : s ≠ t := by
      rintro rfl
      have hnot := (List.nodup_cons.mp hnames.nodup).1
      exact hnot (by rw [hs, ← ht]; exact List.mem_cons_self)
    have hcompare : compareKeys? e.1 other.1 = some (compare s t) := by
      rw [hs, ht, compareKeys?]
    rw [placeEntry, hcompare] at h
    cases horder : compare s t with
    | lt =>
      rw [horder] at h
      obtain rfl := Except.ok.inj h
      have hfirst : Before e other := (before_iff hs ht).mpr horder
      refine List.pairwise_cons.mpr ⟨List.forall_mem_cons.mpr ⟨hfirst, fun o ho => ?_⟩, hsorted⟩
      refine hfirst.trans (hother o ho) ?_
      simp only [List.forall_mem_cons]
      exact ⟨⟨s, hs⟩, ⟨t, ht⟩,
        hname o (List.mem_cons_of_mem _ (List.mem_cons_of_mem _ ho)), List.forall_mem_nil _⟩
    | eq => exact absurd (Std.LawfulEqCmp.eq_of_compare horder) hne
    | gt =>
      rw [horder] at h
      obtain ⟨placed, hplaced, hresult⟩ := bind_eq_ok h
      obtain rfl := Except.ok.inj hresult
      have hless : Before other e := (before_iff ht hs).mpr (Std.OrientedCmp.lt_of_gt horder)
      have hkept : UniqueNames ((e :: rest).map Prod.fst) :=
        { names := fun k hk => hnames.names k (by
            rw [List.map_cons, List.map_cons]
            rcases List.mem_cons.mp hk with rfl | hk
            · exact List.mem_cons_self
            · exact List.mem_cons_of_mem _ (List.mem_cons_of_mem _ hk))
          nodup := hnames.nodup.sublist ((List.sublist_cons_self ..).cons_cons _) }
      refine List.pairwise_cons.mpr ⟨fun o ho => ?_, ih hkept hrest hplaced⟩
      rcases List.mem_cons.mp ((placeEntry_perm hplaced).mem_iff.mp ho) with rfl | ho
      · exact hless
      · exact hother o ho

theorem pairwise_foldlM_placeEntry (hnames : UniqueNames ((entries ++ sorted).map Prod.fst))
    (hsorted : sorted.Pairwise Before)
    (h : entries.foldlM (fun sorted entry => placeEntry entry sorted) sorted = .ok result) :
    result.Pairwise Before := by
  induction entries generalizing sorted with
  | nil =>
    obtain rfl := Except.ok.inj h
    exact hsorted
  | cons e entries ih =>
    rw [List.foldlM_cons] at h
    obtain ⟨placed, hplaced, h⟩ := bind_eq_ok h
    have hperm : (entries ++ placed).Perm (e :: entries ++ sorted) :=
      ((placeEntry_perm hplaced).append_left entries).trans List.perm_middle
    have hhead : UniqueNames ((e :: sorted).map Prod.fst) :=
      { names := fun k hk => hnames.names k (by
          rw [List.cons_append, List.map_cons, List.map_append]
          rcases List.mem_cons.mp hk with rfl | hk
          · exact List.mem_cons_self
          · exact List.mem_cons_of_mem _ (List.mem_append_right _ hk))
        nodup := hnames.nodup.sublist
          (((List.sublist_append_right ..).cons_cons e).map Prod.fst) }
    exact ih (hnames.perm (hperm.map Prod.fst)) (pairwise_placeEntry hhead hsorted hplaced) h

/-- Entries under names are sorted. -/
theorem sortEntries_eq_inOrder (hnames : UniqueNames (entries.map Prod.fst)) :
    sortEntries entries = .ok (inOrder entries) := by
  have hsorts : Succeeds (sortEntries entries) :=
    succeeds_sortEntries_iff.mpr (.inr ⟨.text, fun k hk => by
      obtain ⟨s, rfl⟩ := hnames.names k hk
      rfl⟩)
  obtain ⟨sorted, hsorted⟩ := hsorts
  rw [inOrder, hsorted]
  rfl

theorem inOrder_perm (hnames : UniqueNames (entries.map Prod.fst)) :
    (inOrder entries).Perm entries :=
  sortEntries_perm (sortEntries_eq_inOrder hnames)

theorem pairwise_inOrder (hnames : UniqueNames (entries.map Prod.fst)) :
    (inOrder entries).Pairwise Before := by
  have hall : UniqueNames ((entries ++ []).map Prod.fst) := by rwa [List.append_nil]
  exact pairwise_foldlM_placeEntry hall .nil (sortEntries_eq_inOrder hnames)

/-- **There is one order of names**, whatever their order before. -/
theorem inOrder_congr (hnames : UniqueNames (entries.map Prod.fst)) (hperm : entries.Perm others) :
    inOrder entries = inOrder others := by
  have hothers := hnames.perm (hperm.map Prod.fst).symm
  refine List.Perm.eq_of_pairwise (fun e f he hf hef hfe => ?_) (pairwise_inOrder hnames)
    (pairwise_inOrder hothers)
    ((inOrder_perm hnames).trans (hperm.trans (inOrder_perm hothers).symm))
  obtain ⟨s, hs⟩ := hnames.names e.1 (List.mem_map_of_mem ((inOrder_perm hnames).mem_iff.mp he))
  obtain ⟨t, ht⟩ := hothers.names f.1 (List.mem_map_of_mem ((inOrder_perm hothers).mem_iff.mp hf))
  rw [before_iff hs ht] at hef
  rw [before_iff ht hs, ← Std.OrientedCmp.gt_iff_lt, hef] at hfe
  cases hfe

theorem sortEntries_congr (hnames : UniqueNames (entries.map Prod.fst))
    (hperm : entries.Perm others) : sortEntries entries = sortEntries others := by
  rw [sortEntries_eq_inOrder hnames, inOrder_congr hnames hperm,
    sortEntries_eq_inOrder (hnames.perm (hperm.map Prod.fst).symm)]

end Order

/-! ### Arrangements -/

mutual

/-- The tree with the entries of all objects in the order of their keys, and one identity for all of
its nodes. -/
def arranged : Value → Value
  | .array _ form items => .array 0 form (arrangedItems items)
  | .object _ form entries => .object 0 form (inOrder (arrangedEntries entries))
  | v => v

def arrangedItems : List Value → List Value
  | [] => []
  | v :: rest => v.arranged :: arrangedItems rest

def arrangedEntries : Entries → Entries
  | [] => []
  | (k, v) :: rest => (k, v.arranged) :: arrangedEntries rest

end

theorem arrangedItems_eq_map (items : List Value) : arrangedItems items = items.map arranged := by
  induction items with
  | nil => rfl
  | cons v items ih => rw [arrangedItems, ih, List.map_cons]

theorem arrangedEntries_eq_map (entries : Entries) :
    arrangedEntries entries = entries.map fun e => (e.1, e.2.arranged) := by
  induction entries with
  | nil => rfl
  | cons e entries ih => rw [arrangedEntries, ih, List.map_cons]

theorem fst_arrangedEntries (entries : Entries) :
    (arrangedEntries entries).map Prod.fst = entries.map Prod.fst := by
  rw [arrangedEntries_eq_map, List.map_map]
  rfl

theorem WellFormedEntries.names {entries : Entries} (h : WellFormedEntries entries)
    (hnodup : (entries.map Prod.fst).Nodup) : UniqueNames (entries.map Prod.fst) where
  names := h.keys
  nodup := hnodup

/-- The arrangement of an object is that of its entries, put in order. -/
theorem inOrder_arrangedEntries {entries : Entries} (hnames : UniqueNames (entries.map Prod.fst)) :
    inOrder (arrangedEntries entries) = arrangedEntries (inOrder entries) := by
  have hsorted := sortEntries_map arranged entries
  rw [sortEntries_eq_inOrder hnames, ← arrangedEntries_eq_map,
    sortEntries_eq_inOrder (by rwa [fst_arrangedEntries])] at hsorted
  rw [arrangedEntries_eq_map (inOrder entries)]
  exact Except.ok.inj hsorted

theorem inOrder_arrangedEntries_eq_iff {entries others : Entries}
    (hnames : UniqueNames (entries.map Prod.fst)) (hothers : UniqueNames (others.map Prod.fst)) :
    inOrder (arrangedEntries entries) = inOrder (arrangedEntries others) ↔
      (arrangedEntries entries).Perm (arrangedEntries others) := by
  rw [← fst_arrangedEntries] at hnames hothers
  constructor
  · intro h
    exact ((inOrder_perm hnames).symm.trans (.of_eq h)).trans (inOrder_perm hothers)
  · exact inOrder_congr hnames

/-- An arrangement with a member under a key is that of a tree that has one there. -/
theorem exists_of_perm_arrangedEntries {k v : Value} {rest : Entries} {others : Entries}
    (h : ((k, v) :: rest).Perm (arrangedEntries others)) :
    ∃ w before after, others = before ++ (k, w) :: after ∧ v = w.arranged ∧
      rest.Perm (arrangedEntries (before ++ after)) := by
  have hmem : (k, v) ∈ arrangedEntries others := h.mem_iff.mp List.mem_cons_self
  rw [arrangedEntries_eq_map] at hmem
  obtain ⟨⟨_, w⟩, hentry, heq⟩ := List.mem_map.mp hmem
  obtain ⟨rfl, rfl⟩ := Prod.mk.inj heq
  obtain ⟨before, after, rfl⟩ := List.append_of_mem hentry
  refine ⟨w, before, after, rfl, rfl, ?_⟩
  rw [arrangedEntries_eq_map, List.map_append, List.map_cons] at h
  rw [arrangedEntries_eq_map, List.map_append]
  exact (h.trans List.perm_middle).cons_inv

mutual

/-- **Trees are the same up to the order of keys iff their arrangements are equal.** -/
theorem reordered_iff_arranged_eq : ∀ {v w : Value}, v.WellFormed → w.WellFormed →
    (v.Reordered w ↔ v.arranged = w.arranged)
  | .array _ form items, w, hv, hw => by
    rw [Reordered, arranged]
    constructor
    · rintro ⟨node, others, rfl, h⟩
      rw [arranged, (reorderedItems_iff hv hw).mp h]
    · intro h
      cases w with
      | array node form' others =>
        obtain ⟨-, rfl, hitems⟩ := Value.array.inj h
        exact ⟨node, others, rfl, (reorderedItems_iff hv hw).mpr hitems⟩
      | _ => cases h
  | .object _ form entries, w, hv, hw => by
    rw [Reordered, arranged]
    constructor
    · rintro ⟨node, others, rfl, h⟩
      rw [arranged, (inOrder_arrangedEntries_eq_iff (hv.2.names hv.1) (hw.2.names hw.1)).mpr
        ((reorderedEntries_iff hv.2 hw.2).mp h)]
    · intro h
      cases w with
      | object node form' others =>
        obtain ⟨-, rfl, hentries⟩ := Value.object.inj h
        exact ⟨node, others, rfl, (reorderedEntries_iff hv.2 hw.2).mpr
          ((inOrder_arrangedEntries_eq_iff (hv.2.names hv.1) (hw.2.names hw.1)).mp hentries)⟩
      | _ => cases h
  | .null, w, _, _ | .bool _, w, _, _ | .int _, w, _, _ | .float _, w, _, _ | .str _, w, _, _ => by
    rw [Reordered]
    · cases w <;> simp [arranged, eq_comm]
    all_goals nofun

theorem reorderedItems_iff : ∀ {items others : List Value}, WellFormedItems items →
    WellFormedItems others →
      (ReorderedItems items others ↔ arrangedItems items = arrangedItems others)
  | [], others, _, _ => by
    rw [ReorderedItems]
    cases others <;> simp [arrangedItems]
  | v :: rest, others, hv, hw => by
    rw [ReorderedItems]
    constructor
    · rintro ⟨w, more, rfl, hhead, htail⟩
      rw [arrangedItems, arrangedItems, (reordered_iff_arranged_eq hv.1 hw.1).mp hhead,
        (reorderedItems_iff hv.2 hw.2).mp htail]
    · intro h
      cases others with
      | nil => cases h
      | cons w more =>
        obtain ⟨hhead, htail⟩ := List.cons.inj h
        exact ⟨w, more, rfl, (reordered_iff_arranged_eq hv.1 hw.1).mpr hhead,
          (reorderedItems_iff hv.2 hw.2).mpr htail⟩

theorem reorderedEntries_iff : ∀ {entries others : Entries}, WellFormedEntries entries →
    WellFormedEntries others →
      (ReorderedEntries entries others ↔ (arrangedEntries entries).Perm (arrangedEntries others))
  | [], others, _, _ => by
    rw [ReorderedEntries, arrangedEntries, List.nil_perm]
    cases others <;> simp [arrangedEntries]
  | (k, v) :: rest, others, hv, hw => by
    have hsplit : ∀ {w before after}, others = before ++ (k, w) :: after →
        w.WellFormed ∧ WellFormedEntries (before ++ after) := by
      rintro w before after rfl
      simp only [wellFormedEntries_iff, List.forall_mem_append, List.forall_mem_cons] at hw ⊢
      exact ⟨hw.2.1.2, hw.1, hw.2.2⟩
    rw [ReorderedEntries, arrangedEntries]
    constructor
    · rintro ⟨w, before, after, rfl, hhead, htail⟩
      obtain ⟨hmember, hothers⟩ := hsplit rfl
      have hrest := (reorderedEntries_iff hv.2.2 hothers).mp htail
      rw [(reordered_iff_arranged_eq hv.2.1 hmember).mp hhead, arrangedEntries_eq_map (_ ++ _),
        List.map_append, List.map_cons]
      rw [arrangedEntries_eq_map (_ ++ _), List.map_append] at hrest
      exact (hrest.cons _).trans List.perm_middle.symm
    · intro h
      obtain ⟨w, before, after, hothers, hhead, htail⟩ := exists_of_perm_arrangedEntries h
      obtain ⟨hmember, hwell⟩ := hsplit hothers
      exact ⟨w, before, after, hothers, (reordered_iff_arranged_eq hv.2.1 hmember).mpr hhead,
        (reorderedEntries_iff hv.2.2 hwell).mpr htail⟩

end

end Value

end Attest

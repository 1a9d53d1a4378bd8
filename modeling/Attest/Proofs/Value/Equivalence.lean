import Attest.Proofs.Number.Comparison
import Attest.Value.Equality
import Mathlib.Data.List.Perm.Subperm

/-!
# Equality is an equivalence

Equality of JSON values is decided by a walk over both of them. What it decides is that they have
one content: a tree in which a number is its place on the extended line, an integer beyond the
range is itself, and an object is the function from names to contents, so that neither the order of
the keys nor the form of a node is in it. Being of one content is an equivalence whatever contents
are, and all that is left to prove is that the walk agrees with it.

## Main definitions

* `Value.WellFormed` — JSON trees with numbers of the format and no key twice
* `Value.Content`, `Value.content` — what equality looks at

## Main results

* `Value.numbersEqual_iff` — equality of numbers, on both sides of the range
* `Value.equals_iff_content_eq` — values are equal iff they have one content
* `Value.equals_equivalence` — equality is an equivalence
-/

namespace Attest

namespace Value

/-! ### Contents -/

/-- What equality looks at in a value. -/
inductive Content where
  | null
  | bool (b : Bool)
  /-- A number by its place, or an integer beyond the range. -/
  | number (magnitude : Int ⊕ Int × ℚ)
  | text (s : String)
  | items (contents : List Content)
  | fields (contentAt : String → Option Content)

/-- The place of a number's rounding; an integer beyond the range is not rounded. -/
def magnitude : Int ⊕ Double → Int ⊕ Int × ℚ
  | .inl n =>
    match Double.ofInt? n with
    | some x => .inr x.place
    | none => .inl n
  | .inr x => .inr x.place

mutual

/-- The content of a JSON value. -/
def content : Value → Content
  | .bool b => .bool b
  | .int n => .number (magnitude (.inl n))
  | .float x => .number (magnitude (.inr x))
  | .str s => .text s
  | .array _ _ items => .items (contents items)
  | .object _ _ entries => .fields (contentAt entries)
  | _ => .null

def contents : List Value → List Content
  | [] => []
  | v :: rest => v.content :: contents rest

/-- The content of the value under a name. -/
def contentAt : Entries → String → Option Content
  | [], _ => none
  | (k, v) :: rest, name => if sameKey (.str name) k then some v.content else contentAt rest name

end

/-! ### Well-formed values -/

mutual

/-- A JSON tree: its numbers are numbers of the format, its objects have string keys, and none of
them twice. -/
def WellFormed : Value → Prop
  | .null | .bool _ | .int _ | .str _ => True
  | .float x => x.IsNumber
  | .array _ _ items => WellFormedItems items
  | .object _ _ entries => (entries.map Prod.fst).Nodup ∧ WellFormedEntries entries
  | _ => False

def WellFormedItems : List Value → Prop
  | [] => True
  | v :: rest => v.WellFormed ∧ WellFormedItems rest

def WellFormedEntries : Entries → Prop
  | [] => True
  | (k, v) :: rest => (∃ s, k = .str s) ∧ v.WellFormed ∧ WellFormedEntries rest

end

theorem wellFormedItems_iff {items : List Value} :
    WellFormedItems items ↔ ∀ v ∈ items, v.WellFormed := by
  induction items with
  | nil => simp [WellFormedItems]
  | cons v rest ih => simp [WellFormedItems, ih]

theorem wellFormedEntries_iff {entries : Entries} :
    WellFormedEntries entries ↔ ∀ e ∈ entries, (∃ s, e.1 = .str s) ∧ e.2.WellFormed := by
  induction entries with
  | nil => simp [WellFormedEntries]
  | cons e rest ih =>
    obtain ⟨k, v⟩ := e
    simp [WellFormedEntries, ih, and_assoc]

/-! ### Numbers -/

section Numbers

variable {a b : Int ⊕ Double}

/-- A number behind a well-formed value. -/
def IsMagnitude : Int ⊕ Double → Prop
  | .inl _ => True
  | .inr x => x.IsNumber

theorem IsMagnitude.isNumber (ha : IsMagnitude a) (x : Double) (hx : a = .inr x) (_ : x ≠ .nan) :
    x.IsNumber := by
  rw [hx] at ha
  exact ha

theorem magnitude_of_toDouble? {x : Double} (h : toDouble? a = some x) :
    magnitude a = .inr x.place := by
  cases a with
  | inl n => simp only [magnitude, show Double.ofInt? n = some x from h]
  | inr y => rw [magnitude, Option.some.inj h]

theorem toDouble?_ne_nan {x : Double} (ha : IsMagnitude a) (h : toDouble? a = some x) :
    x ≠ .nan := by
  cases a with
  | inl n => exact Double.ofInt?_ne_nan h
  | inr y =>
    obtain rfl := Option.some.inj h
    exact ha.ne_nan

/-- Only integers are not converted, and they are what they are. -/
theorem exists_of_toDouble?_eq_none (h : toDouble? a = none) :
    ∃ n : Int, a = .inl n ∧ Double.overflowBound ≤ n.natAbs ∧ magnitude a = .inl n := by
  cases a with
  | inl n =>
    have hn : Double.ofInt? n = none := h
    exact ⟨n, rfl, Double.ofInt?_eq_none_iff.mp hn, by simp only [magnitude, hn]⟩
  | inr y => cases h

theorem compareNumbers?_inl_comm {n : Int} :
    compareNumbers? b (.inl n) = some .eq ↔ compareNumbers? (.inl n) b = some .eq := by
  cases b with
  | inl k =>
    simp only [compareNumbers?, Option.some.injEq, compare_eq_iff_eq]
    exact eq_comm
  | inr y =>
    simp only [compareNumbers?]
    rcases y.compareInt? n with _ | _ | _ | _ <;> simp

/-- An integer that is not converted equals no number that is. -/
theorem compareNumbers?_ne_eq {n : Int} {y : Double}
    (hb : ∀ x, b = .inr x → x ≠ .nan → x.IsNumber)
    (hn : Double.overflowBound ≤ n.natAbs) (hy : toDouble? b = some y) :
    compareNumbers? (.inl n) b ≠ some .eq := by
  rw [ne_eq, ← compareNumbers?_inl_comm]
  cases b with
  | inl k =>
    simp only [compareNumbers?, Option.some.injEq, compare_eq_iff_eq]
    rintro rfl
    have hnone := Double.ofInt?_eq_none_iff.mpr hn
    exact Option.some_ne_none y (hy.symm.trans hnone)
  | inr x => exact Double.compareInt?_ne_eq (hb x rfl) hn

theorem numbersEqual_eq_false {n : Int} {y : Double}
    (hb : ∀ x, b = .inr x → x ≠ .nan → x.IsNumber) (hn : Double.ofInt? n = none)
    (hy : toDouble? b = some y) : numbersEqual (.inl n) b = false := by
  have hne := compareNumbers?_ne_eq hb (Double.ofInt?_eq_none_iff.mp hn) hy
  rw [numbersEqual, show toDouble? (.inl n) = none from hn, beq_eq_false_iff_ne]
  exact hne

/-- **Numbers are equal iff their magnitudes are.** -/
theorem numbersEqual_iff (ha : IsMagnitude a) (hb : IsMagnitude b) :
    numbersEqual a b = true ↔ magnitude a = magnitude b := by
  unfold numbersEqual
  cases hx : toDouble? a with
  | some x =>
    cases hy : toDouble? b with
    | some y =>
      rw [magnitude_of_toDouble? hx, magnitude_of_toDouble? hy, Sum.inr.injEq]
      exact Double.eq_iff (toDouble?_ne_nan ha hx) (toDouble?_ne_nan hb hy)
    | none =>
      obtain ⟨k, rfl, hk, hmagnitude⟩ := exists_of_toDouble?_eq_none hy
      rw [magnitude_of_toDouble? hx, hmagnitude, beq_iff_eq, compareNumbers?_inl_comm]
      exact iff_of_false (compareNumbers?_ne_eq ha.isNumber hk hx) (nomatch ·)
  | none =>
    obtain ⟨n, rfl, hn, hmagnitude⟩ := exists_of_toDouble?_eq_none hx
    cases hy : toDouble? b with
    | some y =>
      rw [magnitude_of_toDouble? hy, hmagnitude, beq_iff_eq]
      exact iff_of_false (compareNumbers?_ne_eq hb.isNumber hn hy) (nomatch ·)
    | none =>
      obtain ⟨k, rfl, -, hmagnitude'⟩ := exists_of_toDouble?_eq_none hy
      rw [hmagnitude, hmagnitude', beq_iff_eq, Sum.inl.injEq]
      simp only [compareNumbers?, Option.some.injEq, compare_eq_iff_eq]

/-- NaN is equal to no number. -/
theorem numbersEqual_nan (b : Int ⊕ Double) :
    numbersEqual (.inr .nan) b = false ∧ numbersEqual b (.inr .nan) = false := by
  have hright (x : Double) : x.eq .nan = false := by cases x <;> rfl
  cases b with
  | inl n =>
    cases hn : Double.ofInt? n with
    | none => simp [numbersEqual, toDouble?, hn, compareNumbers?, Double.compareInt?]
    | some x => simp [numbersEqual, toDouble?, hn, hright, show Double.eq .nan x = false from rfl]
  | inr x => exact ⟨rfl, hright x⟩

end Numbers

/-! ### Objects -/

section Objects

variable {xs ys : Entries}

/-- Only the same string is one key with a string. -/
theorem sameKey_str_iff {s : String} {k : Value} : sameKey (.str s) k = true ↔ k = .str s := by
  cases k with
  | str t =>
    rw [sameKey, beq_iff_eq, Value.str.injEq]
    exact eq_comm
  | _ => simp [sameKey, number?]

theorem sameKey_iff_str {s : String} {k : Value} : sameKey k (.str s) = true ↔ k = .str s := by
  cases k with
  | str t => rw [sameKey, beq_iff_eq, Value.str.injEq]
  | array node form items => cases form <;> simp [sameKey, number?]
  | _ => simp [sameKey, number?]

/-- Where all keys are strings, nothing is under another key. -/
theorem lookup_of_ne_str {key : Value} (hkey : ∀ s, key ≠ .str s) : ∀ {entries : Entries},
    (∀ k ∈ entries.map Prod.fst, ∃ s, k = .str s) → lookup key entries = none
  | [], _ => rfl
  | (_, _) :: _, h => by
    obtain ⟨⟨s, rfl⟩, hrest⟩ := List.forall_mem_cons.mp h
    rw [lookup, if_neg fun hs => hkey s (sameKey_iff_str.mp hs), lookup_of_ne_str hkey hrest]

theorem isSome_lookup_str_iff {s : String} {entries : Entries} :
    (lookup (.str s) entries).isSome = true ↔ .str s ∈ entries.map Prod.fst := by
  induction entries with
  | nil => simp [lookup]
  | cons e rest ih =>
    rw [lookup, List.map_cons, List.mem_cons]
    split
    · next hkey => simp [sameKey_str_iff.mp hkey]
    · next hkey => rw [ih, or_iff_right fun h => hkey (sameKey_str_iff.mpr h.symm)]

theorem contentAt_eq {s : String} {entries : Entries} :
    contentAt entries s = (lookup (.str s) entries).map content := by
  induction entries with
  | nil => rfl
  | cons e rest ih =>
    rw [contentAt, lookup]
    split
    · rfl
    · exact ih

theorem isSome_contentAt_iff {s : String} {entries : Entries} :
    (contentAt entries s).isSome = true ↔ .str s ∈ entries.map Prod.fst := by
  rw [contentAt_eq, Option.isSome_map, isSome_lookup_str_iff]

theorem WellFormedEntries.keys : ∀ {entries : Entries}, WellFormedEntries entries →
    ∀ k ∈ entries.map Prod.fst, ∃ s, k = .str s
  | (_, _) :: _, h, _, hk => by
    rcases List.mem_cons.mp hk with rfl | hk
    · exact h.1
    · exact h.2.2.keys _ hk

theorem WellFormedEntries.lookup {key v : Value} : ∀ {entries : Entries},
    WellFormedEntries entries → Value.lookup key entries = some v → v.WellFormed
  | (k, w) :: rest, h, hv => by
    rw [Value.lookup] at hv
    split at hv
    · rw [← Option.some.inj hv]
      exact h.2.1
    · exact h.2.2.lookup hv

/-- What is under the names of the first object is under them in the second one. -/
def Included (xs ys : Entries) : Prop :=
  ∀ s c, contentAt xs s = some c → contentAt ys s = some c

theorem included_cons_iff {s : String} {v : Value} (hs : Value.str s ∉ xs.map Prod.fst) :
    Included ((.str s, v) :: xs) ys ↔ contentAt ys s = some v.content ∧ Included xs ys := by
  have habsent : contentAt xs s = none := by
    rwa [← Option.not_isSome_iff_eq_none, isSome_contentAt_iff]
  constructor
  · intro h
    refine ⟨h s _ (by rw [contentAt, if_pos (sameKey_str_iff.mpr rfl)]), fun t c ht => h t c ?_⟩
    rw [contentAt, if_neg, ht]
    rintro hkey
    obtain rfl := Value.str.inj (sameKey_str_iff.mp hkey)
    rw [habsent] at ht
    cases ht
  · rintro ⟨hhead, hrest⟩ t c ht
    rw [contentAt] at ht
    split at ht
    · next hkey =>
      obtain rfl := Value.str.inj (sameKey_str_iff.mp hkey)
      rw [hhead, ht]
    · exact hrest t c ht

theorem sameKeySet_iff (hxs : WellFormedEntries xs) :
    sameKeySet xs ys = true ↔
      xs.length = ys.length ∧ xs.map Prod.fst ⊆ ys.map Prod.fst := by
  rw [sameKeySet, Bool.and_eq_true, beq_iff_eq, List.all_eq_true]
  refine and_congr_right fun _ => ⟨fun h k hk => ?_, fun h e he => ?_⟩
  · obtain ⟨s, rfl⟩ := hxs.keys k hk
    obtain ⟨⟨k, v⟩, he, rfl⟩ := List.mem_map.mp hk
    exact isSome_lookup_str_iff.mp (h _ he)
  · have hk : e.1 ∈ xs.map Prod.fst := List.mem_map_of_mem he
    obtain ⟨s, hs⟩ := hxs.keys _ hk
    rw [hs] at hk
    rw [show e = (.str s, e.2) from Prod.ext hs rfl]
    exact isSome_lookup_str_iff.mpr (h hk)

/-- The same keys are the same in some order. -/
theorem keys_perm (hxs : WellFormedEntries xs) (hnodup : (xs.map Prod.fst).Nodup)
    (h : sameKeySet xs ys = true) : (xs.map Prod.fst).Perm (ys.map Prod.fst) := by
  obtain ⟨hlength, hsubset⟩ := (sameKeySet_iff hxs).mp h
  exact (List.subperm_of_subset hnodup hsubset).perm_of_length_le (by simp [hlength])

/-- Objects have one content iff they have the same keys and one of them is in the other. -/
theorem contentAt_eq_iff (hxs : WellFormedEntries xs) (hys : WellFormedEntries ys)
    (hxs' : (xs.map Prod.fst).Nodup) (hys' : (ys.map Prod.fst).Nodup) :
    contentAt xs = contentAt ys ↔ sameKeySet xs ys = true ∧ Included xs ys := by
  constructor
  · rw [sameKeySet_iff hxs]
    intro h
    have hkeys (k : Value) : k ∈ xs.map Prod.fst ↔ k ∈ ys.map Prod.fst := by
      constructor
      · intro hk
        obtain ⟨s, rfl⟩ := hxs.keys k hk
        rwa [← isSome_contentAt_iff, ← h, isSome_contentAt_iff]
      · intro hk
        obtain ⟨s, rfl⟩ := hys.keys k hk
        rwa [← isSome_contentAt_iff, h, isSome_contentAt_iff]
    have hperm := (List.perm_ext_iff_of_nodup hxs' hys').mpr hkeys
    refine ⟨⟨by simpa using hperm.length_eq, hperm.subset⟩, fun s c hc => h ▸ hc⟩
  · rintro ⟨hkeys, hincluded⟩
    have hperm := keys_perm hxs hxs' hkeys
    funext s
    cases hc : contentAt xs s with
    | some c => exact (hincluded s c hc).symm
    | none =>
      rw [← Option.not_isSome_iff_eq_none, isSome_contentAt_iff, hperm.mem_iff,
        ← isSome_contentAt_iff, Option.not_isSome_iff_eq_none] at hc
      exact hc.symm

end Objects

/-! ### Equality and content -/

/-- A computation that decides a proposition. -/
def Decides (c : Except Fault Bool) (p : Prop) : Prop := ∃ r, c = .ok r ∧ (r = true ↔ p)

theorem decides_ok (r : Bool) : Decides (.ok r) (r = true) := ⟨r, rfl, Iff.rfl⟩

section

variable {c d : Except Fault Bool} {p q : Prop}

theorem Decides.congr (h : Decides c p) (hpq : p ↔ q) : Decides c q :=
  let ⟨r, hr, hp⟩ := h
  ⟨r, hr, hp.trans hpq⟩

/-- One decision after the other, up to the first that is negative. -/
theorem Decides.and (hc : Decides c p) (hd : Decides d q) :
    Decides (do if ← c then d else return false) (p ∧ q) := by
  obtain ⟨r, rfl, hr⟩ := hc
  obtain ⟨t, rfl, ht⟩ := hd
  cases r with
  | true => exact ⟨t, rfl, ht.trans (and_iff_right (hr.mp rfl)).symm⟩
  | false => exact ⟨false, rfl, iff_of_false (nomatch ·) fun h => nomatch hr.mpr h.1⟩

/-- One decision or else the other, up to the first that is positive. -/
theorem Decides.or (hc : Decides c p) (hd : Decides d q) :
    Decides (do if ← c then return true else d) (p ∨ q) := by
  obtain ⟨r, rfl, hr⟩ := hc
  obtain ⟨t, rfl, ht⟩ := hd
  cases r with
  | true => exact ⟨true, rfl, iff_of_true rfl (.inl (hr.mp rfl))⟩
  | false => exact ⟨t, rfl, ht.trans (or_iff_right fun h => nomatch hr.mpr h).symm⟩

end

theorem contents_length : ∀ {items : List Value}, (contents items).length = items.length
  | [] => rfl
  | _ :: _ => congrArg (· + 1) contents_length

/-- The kind of what has this content. -/
def Content.kind : Content → Kind
  | .null => .null
  | .bool _ => .bool
  | .number _ => .number
  | .text _ => .string
  | .items _ => .array
  | .fields _ => .object

theorem kind_of_wellFormed : ∀ {v : Value}, v.WellFormed → v.kind = .ok v.content.kind
  | .null, _ | .bool _, _ | .int _, _ | .float _, _ | .str _, _ | .array .., _
  | .object .., _ => rfl

theorem number_of_kind {v : Value} (h : v.WellFormed) (hkind : v.content.kind = .number) :
    ∃ x, v.number? = some x ∧ IsMagnitude x ∧ v.content = .number (magnitude x) := by
  cases v with
  | int n => exact ⟨.inl n, rfl, trivial, rfl⟩
  | float x => exact ⟨.inr x, rfl, h, rfl⟩
  | _ => cases hkind

theorem equals_decides :
    (∀ a b : Value, a.WellFormed → b.WellFormed → Decides (equals a b) (a.content = b.content)) ∧
      (∀ xs ys : Entries, WellFormedEntries xs → WellFormedEntries ys →
        (xs.map Prod.fst).Nodup → Decides (equalEntries xs ys) (Included xs ys)) ∧
      ∀ xs ys : List Value, WellFormedItems xs → WellFormedItems ys → xs.length = ys.length →
        Decides (equalItems xs ys) (contents xs = contents ys) := by
  apply equals.mutual_induct
  case case1 =>
    intro _ _
    rw [equals]
    exact ⟨true, rfl, iff_of_true rfl rfl⟩
  case case2 | case3 =>
    intro x y _ _
    rw [equals]
    refine (decides_ok _).congr ?_
    rw [beq_iff_eq]
    simp only [content, Content.bool.injEq, Content.text.injEq]
  case case4 =>
    intro _ _ xs _ _ ys hlength ih ha hb
    rw [equals, if_pos hlength]
    refine (ih ha hb (by simpa using hlength)).congr ?_
    simp only [content, Content.items.injEq]
  case case5 =>
    intro _ _ xs _ _ ys hlength ha hb
    rw [equals, if_neg hlength]
    refine ⟨false, rfl, iff_of_false (nomatch ·) fun h => hlength ?_⟩
    rw [beq_iff_eq, ← contents_length, Content.items.inj h, contents_length]
  case case6 =>
    intro _ _ xs _ _ ys hkeys ih ha hb
    rw [equals, if_pos hkeys]
    refine (ih ha.2 hb.2 ha.1).congr ?_
    simp only [content, Content.fields.injEq]
    rw [contentAt_eq_iff ha.2 hb.2 ha.1 hb.1, and_iff_right hkeys]
  case case7 =>
    intro _ _ xs _ _ ys hkeys ha hb
    rw [equals, if_neg hkeys]
    refine ⟨false, rfl, iff_of_false (nomatch ·) fun h => hkeys ?_⟩
    exact ((contentAt_eq_iff ha.2 hb.2 ha.1 hb.1).mp (Content.fields.inj h)).1
  case case8 =>
    intro a b h1 h2 h3 h4 h5 ha hb
    rw [equals, kind_of_wellFormed ha, kind_of_wellFormed hb]
    · refine Decides.congr (p := a.content.kind = b.content.kind ∧ a.content = b.content) ?_
        (and_iff_right_of_imp (congrArg Content.kind))
      by_cases hkind : a.content.kind = b.content.kind
      · have hnumber : a.content.kind = .number := by
          cases a <;> cases b <;> first
            | rfl | exact ha.elim | exact hb.elim | (cases hkind; done)
            | exact (h1 rfl rfl).elim | exact (h2 _ _ rfl rfl).elim | exact (h3 _ _ rfl rfl).elim
            | exact (h4 _ _ _ _ _ _ rfl rfl).elim | exact (h5 _ _ _ _ _ _ rfl rfl).elim
        obtain ⟨x, hx, hxm, hxc⟩ := number_of_kind ha hnumber
        obtain ⟨y, hy, hym, hyc⟩ := number_of_kind hb (hkind ▸ hnumber)
        refine ⟨numbersEqual x y, by simp [bind, Except.bind, hkind, hx, hy]; rfl, ?_⟩
        rw [and_iff_right hkind, hxc, hyc, Content.number.injEq]
        exact numbersEqual_iff hxm hym
      · exact ⟨false, by simp [bind, Except.bind, hkind]; rfl, by simp [hkind]⟩
    all_goals assumption
  case case9 =>
    intro x xs y ys ih ihs hx hy hlength
    rw [equalItems]
    refine ((ih hx.1 hy.1).and (ihs hx.2 hy.2 (Nat.succ.inj hlength))).congr ?_
    simp only [contents, List.cons.injEq]
  case case10 =>
    intro xs ys h _ _ hlength
    have hnil : xs = [] ∧ ys = [] := by
      cases xs with
      | nil => exact ⟨rfl, List.length_eq_zero_iff.mp hlength.symm⟩
      | cons x xs =>
        cases ys with
        | nil => cases hlength
        | cons y ys => exact (h x xs y ys rfl rfl).elim
    obtain ⟨rfl, rfl⟩ := hnil
    exact ⟨true, rfl, iff_of_true rfl rfl⟩
  case case11 =>
    intro ys _ _ _
    rw [equalEntries]
    exact ⟨true, rfl, iff_of_true rfl fun s c h => nomatch h⟩
  case case12 =>
    intro k v rest other w hw ih ihs hx hy hnodup
    obtain ⟨⟨s, rfl⟩, hv, hrest⟩ := hx
    obtain ⟨hs, hnodup⟩ := List.nodup_cons.mp hnodup
    rw [equalEntries, hw]
    refine ((ih hv (hy.lookup hw)).and (ihs hrest hy hnodup)).congr ?_
    rw [included_cons_iff hs, contentAt_eq, hw, Option.map_some, Option.some.injEq, eq_comm]
  case case13 =>
    intro k v rest other hw hx _ hnodup
    obtain ⟨⟨s, rfl⟩, hv, hrest⟩ := hx
    obtain ⟨hs, hnodup⟩ := List.nodup_cons.mp hnodup
    rw [equalEntries, hw]
    refine ⟨false, rfl, iff_of_false (nomatch ·) fun h => ?_⟩
    rw [included_cons_iff hs, contentAt_eq, hw] at h
    cases h.1

section

variable {a b c : Value}

/-- **Values are equal iff they have one content**, and equality of well-formed values is no
fault. -/
theorem equals_iff_content_eq (ha : a.WellFormed) (hb : b.WellFormed) :
    Decides (equals a b) (a.content = b.content) :=
  equals_decides.1 a b ha hb

theorem equals_eq_true_iff (ha : a.WellFormed) (hb : b.WellFormed) :
    equals a b = .ok true ↔ a.content = b.content := by
  obtain ⟨r, hr, hcontent⟩ := equals_iff_content_eq ha hb
  rw [hr, Except.ok.injEq, hcontent]

theorem equals_comm (ha : a.WellFormed) (hb : b.WellFormed) : equals a b = equals b a := by
  obtain ⟨r, hr, hcontent⟩ := equals_iff_content_eq ha hb
  obtain ⟨t, ht, hcontent'⟩ := equals_iff_content_eq hb ha
  rw [hr, ht, Except.ok.injEq, Bool.eq_iff_iff, hcontent, hcontent']
  exact eq_comm

end

/-- **Equality is an equivalence.** Comparing well-formed trees is never a fault, and being equal
is reflexive, symmetric and transitive. The conversion of an integer fails from half a unit beyond
the greatest finite number on; such an integer equals no number of the format, be it not a number,
and no integer that is converted. -/
theorem equals_equivalence {a b c : Value} (ha : a.WellFormed) (hb : b.WellFormed)
    (hc : c.WellFormed) :
    equals a a = .ok true
      ∧ (∃ r, equals a b = .ok r ∧ equals b a = .ok r)
      ∧ (equals a b = .ok true → equals b c = .ok true → equals a c = .ok true)
      ∧ ∀ n : Int, (Double.ofInt? n = none ↔ Double.overflowBound ≤ n.natAbs)
        ∧ (Double.ofInt? n = none →
          (∀ x : Double, (x ≠ .nan → x.IsNumber) → equals (.int n) (.float x) = .ok false)
            ∧ ∀ k : Int, Double.ofInt? k ≠ none → equals (.int n) (.int k) = .ok false) := by
  refine ⟨(equals_eq_true_iff ha ha).mpr rfl, ?_, ?_,
    fun n => ⟨Double.ofInt?_eq_none_iff, fun hn => ⟨?_, ?_⟩⟩⟩
  · obtain ⟨r, hr, -⟩ := equals_iff_content_eq ha hb
    exact ⟨r, hr, equals_comm ha hb ▸ hr⟩
  · rw [equals_eq_true_iff ha hb, equals_eq_true_iff hb hc, equals_eq_true_iff ha hc]
    exact Eq.trans
  · intro x hx
    have hfalse : numbersEqual (.inl n) (.inr x) = false :=
      numbersEqual_eq_false (fun y hy => by rwa [← Sum.inr.inj hy]) hn rfl
    exact congrArg Except.ok hfalse
  · intro k hk
    obtain ⟨y, hy⟩ := Option.ne_none_iff_exists'.mp hk
    have hfalse : numbersEqual (.inl n) (.inl k) = false :=
      numbersEqual_eq_false (fun _ h => nomatch h) hn hy
    exact congrArg Except.ok hfalse

/-- An integer, its rounding and an integer beyond the range, in lists and tuples and under keys in
either order. -/
theorem equals_equivalence_mixed :
    equals (record [("n", .int (2 ^ 53 + 1)), ("m", list [.int (2 ^ 1024)])])
      (record [("n", .int (2 ^ 53)), ("m", list [.int (2 ^ 1024)])]) = .ok true :=
  (equals_equivalence
    (b := .object 7 .view [(.str "m", .array 0 .tuple [.int (2 ^ 1024)]),
      (.str "n", .float (.finite false (2 ^ 52) 1))])
    (by simp [record, dict, list, WellFormed, WellFormedEntries, WellFormedItems])
    (by simp [WellFormed, WellFormedEntries, WellFormedItems, Double.IsNumber,
      Double.mantissaBound, Double.minExponent, Double.maxExponent])
    (by simp [record, dict, list, WellFormed, WellFormedEntries, WellFormedItems])).2.2.1
    (by decide +kernel) (by decide +kernel)

end Value

end Attest

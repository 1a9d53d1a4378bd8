import Attest.Proofs.Path.Slash
import Attest.Proofs.Value.Position

/-!
# Addresses

A path is an address: read from left to right, each segment names a part of what the segments
before it lead to. This file says what the addressed value is, by a relation in which nothing is
computed, and that following a path finds it and nothing else. What a segment means depends on the
value at hand, an object or an array, and not on how the segment looks, so a key may look like an
index.

The other direction is writing addresses down. A position in a value is a list of keys and indexes,
and it has as many addresses as its indexes can be written, counted from the start or from the end.

## Main definitions

* `Path.IsIndex` — an integer in decimal, leading zeros allowed
* `Path.Names`, `Path.Addresses` — what a segment and what a path names
* `Path.Spells` — the ways to write a position down

## Main results

* `Path.walk_eq_some_iff` — following segments finds what they address
* `Path.walk_of_spells` — a position that is written down is found
* `Path.follow_finds_addressed` — every position has a path, and a path reaches only one value
-/

namespace Attest

namespace Path

/-! ### Indexes -/

/-- A segment that stands for an index: decimal digits, possibly after a minus sign. -/
inductive IsIndex : List Char → Int → Prop where
  | plain {digits : List Char} (hne : digits ≠ []) (h : ∀ c ∈ digits, c.isDigit) :
      IsIndex digits (Nat.ofDigitChars 10 digits 0)
  | negative {digits : List Char} (hne : digits ≠ []) (h : ∀ c ∈ digits, c.isDigit) :
      IsIndex ('-' :: digits) (-(Nat.ofDigitChars 10 digits 0 : Nat))

theorem isIndexDigit_eq (c : Char) : isIndexDigit c = c.isDigit := rfl

theorem digits_iff {digits : List Char} :
    (digits ≠ [] ∧ digits.all isIndexDigit = true) ↔
      digits ≠ [] ∧ ∀ c ∈ digits, c.isDigit = true := by
  simp only [List.all_eq_true, isIndexDigit_eq]

/-- The integer with this sign and these digits. -/
def signed (negative : Bool) (digits : List Char) : Int :=
  if negative then -(indexMagnitude digits : Int) else indexMagnitude digits

theorem isIndex_iff {segment : List Char} {i : Int} :
    IsIndex segment i ↔
      ∃ negative digits, indexParts? segment = some (negative, digits) ∧
        i = signed negative digits := by
  constructor
  · rintro (⟨hne, h⟩ | ⟨hne, h⟩)
    · refine ⟨false, segment, ?_, rfl⟩
      unfold indexParts?
      split
      · exact absurd (h '-' List.mem_cons_self) (by decide)
      · exact if_pos (digits_iff.mpr ⟨hne, h⟩)
    · exact ⟨true, _, if_pos (digits_iff.mpr ⟨hne, h⟩), rfl⟩
  · rintro ⟨negative, digits, hparts, rfl⟩
    unfold indexParts? at hparts
    split at hparts <;> split at hparts <;> cases hparts
    · next h => exact .negative (digits_iff.mp h).1 (digits_iff.mp h).2
    · next h => exact .plain (digits_iff.mp h).1 (digits_iff.mp h).2

/-- An index that is not too long is read, and nothing else is. -/
theorem index?_eq_some_iff {segment : List Char} (h : ¬ Oversized segment) {i : Int} :
    index? segment = some (.ok i) ↔ IsIndex segment i := by
  rw [isIndex_iff, index?]
  cases hparts : indexParts? segment with
  | none => simp
  | some parts =>
    obtain ⟨negative, digits⟩ := parts
    have hshort : ¬ digitLimit < digits.length := fun hlong => h ⟨negative, digits, hparts, hlong⟩
    simp only [Option.map_some, if_neg hshort, Option.some.injEq, Except.ok.injEq, Prod.mk.injEq]
    constructor
    · rintro rfl
      exact ⟨negative, digits, ⟨rfl, rfl⟩, rfl⟩
    · rintro ⟨_, _, ⟨rfl, rfl⟩, rfl⟩
      rfl

/-- An element is at an index from the start, or at one from the end. -/
theorem elementAt?_eq_some_iff {items : List Value} {i : Int} {x : Value} :
    elementAt? items i = some x ↔ -(items.length : Int) ≤ i ∧ i < items.length ∧
      items[(i % items.length).toNat]? = some x := by
  rw [elementAt?]
  generalize hposition : (if i < 0 then i + (items.length : Int) else i) = position
  have hrange : (-(items.length : Int) ≤ i ∧ i < items.length) ↔
      0 ≤ position ∧ position < items.length := by
    rw [← hposition]
    split <;> omega
  have hmod (hlow : -(items.length : Int) ≤ i) (hhigh : i < items.length) :
      i % items.length = position := by
    rw [← hposition]
    split
    · rw [← Int.add_emod_right]
      exact Int.emod_eq_of_lt (by omega) (by omega)
    · exact Int.emod_eq_of_lt (by omega) hhigh
  constructor
  · intro h
    split at h
    · next hpos =>
      have hlt := (List.getElem?_eq_some_iff.mp h).1
      obtain ⟨hlow, hhigh⟩ := hrange.mpr ⟨hpos, by omega⟩
      exact ⟨hlow, hhigh, by rwa [hmod hlow hhigh]⟩
    · cases h
  · rintro ⟨hlow, hhigh, hx⟩
    rwa [if_pos (hrange.mp ⟨hlow, hhigh⟩).1, ← hmod hlow hhigh]

/-! ### What a path names -/

/-- What a segment names in a value: what is under it as a key of an object, or the element at it
as an index of an array. The remainder counts a negative index from the end. -/
inductive Names : Value → List Char → Value → Prop where
  | key {node : NodeId} {form : ObjectForm} {entries : Entries} {segment : List Char} {x : Value}
      (hx : Value.field? (String.ofList segment) entries = some x) :
      Names (.object node form entries) segment x
  | index {node : NodeId} {form : ArrayForm} {items : List Value} {segment : List Char} {i : Int}
      {x : Value} (hi : IsIndex segment i) (hlow : -(items.length : Int) ≤ i)
      (hhigh : i < items.length) (hx : items[(i % items.length).toNat]? = some x) :
      Names (.array node form items) segment x

/-- What segments name, each of them in what those before it name. -/
inductive Addresses : Value → List (List Char) → Value → Prop where
  | here {v : Value} : Addresses v [] v
  | down {v x y : Value} {segment : List Char} {rest : List (List Char)} (h : Names v segment x)
      (hrest : Addresses x rest y) : Addresses v (segment :: rest) y

theorem descend_eq_some_iff {v x : Value} {segment : List Char} (h : ¬ Oversized segment) :
    descend v segment = .ok (some x) ↔ Names v segment x := by
  constructor
  · intro hx
    unfold descend at hx
    split at hx
    · exact .key (Except.ok.inj hx)
    · split at hx
      · next index hindex =>
        obtain ⟨i, rfl, hi⟩ := map_eq_ok hx
        obtain ⟨hlow, hhigh, hitem⟩ := elementAt?_eq_some_iff.mp hi
        exact .index ((index?_eq_some_iff h).mp hindex) hlow hhigh hitem
      · cases hx
    · cases hx
  · rintro (hx | ⟨hi, hlow, hhigh, hx⟩)
    · exact congrArg Except.ok hx
    · rw [descend, (index?_eq_some_iff h).mpr hi]
      exact congrArg Except.ok (elementAt?_eq_some_iff.mpr ⟨hlow, hhigh, hx⟩)

/-- **Following segments finds what they address.** -/
theorem walk_eq_some_iff {x : Value} : ∀ {segments : List (List Char)} {v : Value},
    (∀ segment ∈ segments, ¬ Oversized segment) →
      (walk v segments = .ok (some x) ↔ Addresses v segments x)
  | [], v, _ => by
    constructor
    · rintro ⟨⟩
      exact .here
    · rintro ⟨⟩
      rfl
  | segment :: rest, v, h => by
    obtain ⟨hsegment, hrest⟩ := List.forall_mem_cons.mp h
    rw [walk]
    constructor
    · intro hx
      obtain ⟨next?, hnext, hx⟩ := bind_eq_ok hx
      cases next? with
      | none => cases hx
      | some next =>
        exact .down ((descend_eq_some_iff hsegment).mp hnext) ((walk_eq_some_iff hrest).mp hx)
    · rintro (_ | ⟨hnext, hx⟩)
      rw [(descend_eq_some_iff hsegment).mpr hnext]
      exact (walk_eq_some_iff hrest).mpr hx

/-! ### Writing positions down -/

/-- The ways to write a position in a value down: keys as they are, and indexes in decimal, counted
from the start or from the end, if they are not too long to be read. -/
inductive Spells : Value → List Hop → List String → Prop where
  | here {v : Value} : Spells v [] []
  | key {v x : Value} {name : String} {hops : List Hop} {texts : List String}
      (hx : v.part? (.key name) = some x) (hrest : Spells x hops texts) :
      Spells v (.key name :: hops) (name :: texts)
  | index {node : NodeId} {form : ArrayForm} {items : List Value} {i : Nat} {x : Value}
      {text : String} {hops : List Hop} {texts : List String} (hx : items[i]? = some x)
      (htext : text = toString i ∨ text = toString ((i : Int) - items.length))
      (hshort : ¬ Oversized text.toList) (hrest : Spells x hops texts) :
      Spells (.array node form items) (.index i :: hops) (text :: texts)

theorem isDigit_of_decimal (n : Nat) : ∀ c ∈ Nat.toDigits 10 n, c.isDigit := fun _ hc =>
  Nat.isDigit_of_mem_toDigits (by decide) (by decide) hc

theorem isIndex_natural (n : Nat) : IsIndex (Nat.toDigits 10 n) n := by
  have hplain := IsIndex.plain Nat.toDigits_ne_nil (isDigit_of_decimal n)
  rwa [Nat.ofDigitChars_ten_toDigits] at hplain

/-- An integer in decimal stands for itself. -/
theorem isIndex_toString (i : Int) : IsIndex (toString i).toList i := by
  rw [Int.toString_eq_repr, Int.repr_eq_if]
  split
  · next h =>
    rw [Nat.toList_repr]
    have hnatural := isIndex_natural i.toNat
    rwa [Int.toNat_of_nonneg h] at hnatural
  · next h =>
    rw [String.toList_append, Nat.toList_repr]
    have hnegative := IsIndex.negative Nat.toDigits_ne_nil (isDigit_of_decimal (-i).toNat)
    rwa [Nat.ofDigitChars_ten_toDigits, Int.toNat_of_nonneg (by omega), Int.neg_neg] at hnegative

/-- An index is not empty, and has no slash in it. -/
theorem IsIndex.segment {segment : List Char} {i : Int} (h : IsIndex segment i) :
    segment ≠ [] ∧ '/' ∉ segment := by
  have hslash {digits : List Char} (h : ∀ c ∈ digits, c.isDigit) : '/' ∉ digits :=
    fun hmem => absurd (h '/' hmem) (by decide)
  cases h with
  | plain hne h => exact ⟨hne, hslash h⟩
  | negative _ h => exact ⟨List.cons_ne_nil _ _, by simpa using hslash h⟩

/-- Both ways of writing an index down stand for an index. -/
theorem isIndex_of_text {i length : Nat} {text : String}
    (htext : text = toString i ∨ text = toString ((i : Int) - length)) :
    IsIndex text.toList i ∨ IsIndex text.toList (i - length) := by
  rcases htext with rfl | rfl
  · rw [Nat.toString_eq_repr, Nat.toList_repr]
    exact .inl (isIndex_natural i)
  · exact .inr (isIndex_toString _)

/-- They lead to the element at it. -/
theorem descend_of_text {node : NodeId} {form : ArrayForm} {items : List Value} {i : Nat}
    {x : Value} {text : String} (hx : items[i]? = some x)
    (htext : text = toString i ∨ text = toString ((i : Int) - items.length))
    (hshort : ¬ Oversized text.toList) :
    descend (.array node form items) text.toList = .ok (some x) := by
  have hlt := (List.getElem?_eq_some_iff.mp hx).1
  refine (descend_eq_some_iff hshort).mpr ?_
  rcases isIndex_of_text htext with hi | hi
  · refine .index hi (by omega) (by omega) ?_
    rw [Int.emod_eq_of_lt (by omega) (by omega)]
    exact hx
  · refine .index hi (by omega) (by omega) ?_
    rw [Int.sub_emod_right, Int.emod_eq_of_lt (by omega) (by omega)]
    exact hx

/-- **A position that is written down is found.** -/
theorem walk_of_spells {v x : Value} {hops : List Hop} {texts : List String}
    (h : Spells v hops texts) (hx : v.at? hops = some x) :
    walk v (texts.map String.toList) = .ok (some x) := by
  induction h with
  | here => exact congrArg Except.ok hx
  | @key v y name hops texts hy _ ih =>
    rw [Value.at?, hy] at hx
    cases v with
    | object node form entries =>
      have hdescend : descend (.object node form entries) name.toList = .ok (some y) := by
        rw [descend, String.ofList_toList]
        exact congrArg Except.ok hy
      rw [List.map_cons, walk, hdescend]
      exact ih hx
    | _ => cases hy
  | index hy htext hshort _ ih =>
    rw [Value.at?, Value.part?, hy] at hx
    rw [List.map_cons, walk, descend_of_text hy htext hshort]
    exact ih hx

/-- The segments of texts with slashes between them are the texts. -/
theorem segmentsOf_intercalate {texts : List String}
    (h : ∀ text ∈ texts, text ≠ "" ∧ '/' ∉ text.toList) :
    segmentsOf ("/".intercalate texts).toList = texts.map String.toList := by
  cases texts with
  | nil => rfl
  | cons text rest =>
    have hslash : ∀ l ∈ (text :: rest).map String.toList, '/' ∉ l :=
      List.forall_mem_map.mpr fun t ht => (h t ht).2
    have hne : ∀ l ∈ (text :: rest).map String.toList, l ≠ [] :=
      List.forall_mem_map.mpr fun t ht => by simpa using (h t ht).1
    rw [segmentsOf_eq, String.toList_intercalate,
      show "/".toList = ['/'] from rfl, List.splitOn_intercalate '/' hslash (List.cons_ne_nil _ _),
      List.filter_eq_self.mpr fun l hl => by simpa using hne l hl]

/-- Keys that can be segments: not empty, and without slashes. -/
def Segmental (hops : List Hop) : Prop :=
  ∀ name, Hop.key name ∈ hops → name ≠ "" ∧ '/' ∉ name.toList

theorem Spells.segmental {v : Value} {hops : List Hop} {texts : List String}
    (h : Spells v hops texts) (hkeys : Segmental hops) :
    ∀ text ∈ texts, text ≠ "" ∧ '/' ∉ text.toList := by
  induction h with
  | here => exact fun _ hmem => absurd hmem List.not_mem_nil
  | key _ _ ih =>
    refine List.forall_mem_cons.mpr ⟨hkeys _ List.mem_cons_self, ih fun name hname => ?_⟩
    exact hkeys name (List.mem_cons_of_mem _ hname)
  | @index _ _ _ _ _ text _ _ _ htext _ _ ih =>
    have hsegment : text.toList ≠ [] ∧ '/' ∉ text.toList := by
      rcases isIndex_of_text htext with hi | hi
      · exact hi.segment
      · exact hi.segment
    refine List.forall_mem_cons.mpr ⟨⟨fun he => hsegment.1 (by simp [he]), hsegment.2⟩,
      ih fun name hname => ?_⟩
    exact hkeys name (List.mem_cons_of_mem _ hname)

theorem not_oversized_toString {i : Nat} (h : i < digitBound) :
    ¬ Oversized (toString i).toList := by
  refine not_oversized ?_
  rw [Nat.toString_eq_repr, Nat.toList_repr]
  unfold digitBound at h
  exact length_toDigits_le (by decide) h

/-- Every position can be written down, with its indexes counted from the start. -/
theorem exists_spells {x : Value} : ∀ {hops : List Hop} {v : Value}, v.at? hops = some x →
    (∀ i, Hop.index i ∈ hops → i < digitBound) → ∃ texts, Spells v hops texts
  | [], v, _, _ => ⟨[], .here⟩
  | hop :: rest, v, hx, hindexes => by
    obtain ⟨y, hy, hrest⟩ := Option.bind_eq_some_iff.mp hx
    obtain ⟨texts, htexts⟩ :=
      exists_spells hrest fun i hi => hindexes i (List.mem_cons_of_mem _ hi)
    cases hop with
    | key name => exact ⟨_, .key hy htexts⟩
    | index i =>
      cases v with
      | array node form items =>
        have hshort := not_oversized_toString (hindexes i List.mem_cons_self)
        exact ⟨_, .index hy (.inl rfl) hshort htexts⟩
      | _ => cases hy

/-- **Every position has a path, and a path reaches only one value.** If the indexes of a path can
be read, it leads to what its segments address, and nowhere if they address nothing. A position of
which the keys can be segments is reached by every way to write it down, whatever stands there, and
there is a way. -/
theorem follow_finds_addressed {path : String} (h : Readable path) (v : Value) :
    (∀ x, follow v path = .ok (some x) ↔
        Addresses v ((path.toList.splitOn '/').filter (· ≠ [])) x)
      ∧ (follow v path = .ok none ↔
        ¬ ∃ x, Addresses v ((path.toList.splitOn '/').filter (· ≠ [])) x)
      ∧ ∀ hops x, v.at? hops = some x → Segmental hops →
        (∀ texts, Spells v hops texts → follow v ("/".intercalate texts) = .ok (some x))
          ∧ ((∀ i, Hop.index i ∈ hops → i < digitBound) → ∃ texts, Spells v hops texts) := by
  have hfound (x : Value) : follow v path = .ok (some x) ↔
      Addresses v ((path.toList.splitOn '/').filter (· ≠ [])) x := by
    rw [← segmentsOf_eq]
    exact walk_eq_some_iff h
  refine ⟨hfound, ?_, fun hops x hx hkeys => ⟨fun texts htexts => ?_, exists_spells hx⟩⟩
  · obtain ⟨found, hfollow⟩ := h.succeeds v
    simp only [← hfound, hfollow]
    cases found with
    | none => simp
    | some x => simp
  · rw [follow, segmentsOf_intercalate (htexts.segmental hkeys)]
    exact walk_of_spells htexts hx

/-- A null in a list in an object, reached from the end of the list under a key that looks like an
index. -/
theorem follow_finds_addressed_null :
    let v := Value.record [("0", .list [.str "Dan", .null])]
    Readable "/0/-01" ∧ Addresses v [['0'], ['-', '0', '1']] .null
      ∧ Segmental [.key "0", .index 1] ∧ follow v "0/-1" = .ok (some .null) := by
  intro v
  have hreadable : Readable "/0/-01" := fun segment hs => not_oversized (by
    revert segment
    decide)
  obtain ⟨hfound, -, hspelled⟩ := follow_finds_addressed hreadable v
  have hkeys : Segmental [.key "0", .index 1] := by
    intro name hname
    simp only [List.mem_cons, Hop.key.injEq, reduceCtorEq, List.not_mem_nil, or_false] at hname
    subst hname
    decide
  have hspells : Spells v [.key "0", .index 1] ["0", "-1"] :=
    .key rfl (.index rfl (.inr rfl) (not_oversized (by decide)) .here)
  exact ⟨hreadable, (hfound .null).mp rfl, hkeys, (hspelled _ _ rfl hkeys).1 _ hspells⟩

end Path

end Attest

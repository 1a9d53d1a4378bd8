import Attest.Proofs.Value.Position

/-!
# Values with NaN in them

A document may hold NaN, which equals nothing, itself included. Equality is no equivalence there,
but it takes no more than a look at the values to see when it is one: what equals anything at all
has no NaN in it. So what is known of the equality of values without NaN carries over to wherever an
equality is given.

## Main definitions

* `Value.Regular` — JSON trees with numbers of the format or NaN, and no key twice

## Main results

* `Value.Regular.wellFormed_of_equals` — what equals anything has no NaN in it
* `Value.Regular.equals_congr` — equal values equal the same values
-/

namespace Attest

namespace Value

mutual

/-- A well-formed value, but for the numbers, of which any may be NaN. -/
def Regular : Value → Prop
  | .null | .bool _ | .int _ | .str _ => True
  | .float x => x ≠ .nan → x.IsNumber
  | .array _ _ items => RegularItems items
  | .object _ _ entries => (entries.map Prod.fst).Nodup ∧ RegularEntries entries
  | _ => False

def RegularItems : List Value → Prop
  | [] => True
  | v :: rest => v.Regular ∧ RegularItems rest

def RegularEntries : Entries → Prop
  | [] => True
  | (k, v) :: rest => (∃ s, k = .str s) ∧ v.Regular ∧ RegularEntries rest

end

theorem RegularEntries.keys : ∀ {entries : Entries}, RegularEntries entries →
    ∀ k ∈ entries.map Prod.fst, ∃ s, k = .str s
  | (_, _) :: _, h, _, hk => by
    rcases List.mem_cons.mp hk with rfl | hk
    · exact h.1
    · exact h.2.2.keys _ hk

theorem RegularEntries.lookup {key v : Value} : ∀ {entries : Entries},
    RegularEntries entries → Value.lookup key entries = some v → v.Regular
  | (k, w) :: rest, h, hv => by
    rw [Value.lookup] at hv
    split at hv
    · rw [← Option.some.inj hv]
      exact h.2.1
    · exact h.2.2.lookup hv

mutual

theorem Regular.jsonTree : ∀ {v : Value}, v.Regular → v.JsonTree
  | .null, _ | .bool _, _ | .int _, _ | .float _, _ | .str _, _ => trivial
  | .array _ _ items, h => RegularItems.jsonTree (show RegularItems items from h)
  | .object _ _ _, h => RegularEntries.jsonTree h.2

theorem RegularItems.jsonTree : ∀ {items : List Value}, RegularItems items → JsonTreeItems items
  | [], _ => trivial
  | _ :: _, h => ⟨h.1.jsonTree, RegularItems.jsonTree h.2⟩

theorem RegularEntries.jsonTree : ∀ {entries : Entries}, RegularEntries entries →
    JsonTreeEntries entries
  | [], _ => trivial
  | (_, _) :: _, h => ⟨h.2.1.jsonTree, RegularEntries.jsonTree h.2.2⟩

end

/-! ### What equals anything -/

/-- NaN is what keeps a number from being well-formed. -/
theorem Regular.wellFormed_of_number {v : Value} {x : Int ⊕ Double} (h : v.Regular)
    (hx : v.number? = some x) (hnan : x ≠ .inr .nan) : v.WellFormed := by
  cases v with
  | bool | int => trivial
  | float y =>
    obtain rfl := Option.some.inj hx
    exact h fun hy => hnan (congrArg Sum.inr hy)
  | _ => cases hx

/-- Objects with equal values under the names of the first one, which are those of the second. -/
theorem wellFormedEntries_of_matched {xs ys : Entries} (hxs : WellFormedEntries xs)
    (hys : RegularEntries ys) (hnodup : (xs.map Prod.fst).Nodup)
    (hnodup' : (ys.map Prod.fst).Nodup) (hkeys : sameKeySet xs ys = true)
    (h : ∀ k ∈ xs.map Prod.fst, ∃ w, lookup k ys = some w ∧ w.WellFormed) :
    WellFormedEntries ys := by
  refine wellFormedEntries_iff.mpr fun e he => ?_
  have hmem : e.1 ∈ ys.map Prod.fst := List.mem_map_of_mem he
  obtain ⟨s, hs⟩ := hys.keys _ hmem
  obtain ⟨w, hw, hwell⟩ := h e.1 ((keys_perm hxs hnodup hkeys).mem_iff.mpr hmem)
  have he' : lookup (.str s) ys = some e.2 := lookup_of_mem hnodup' (by rwa [← hs])
  rw [hs, he'] at hw
  exact ⟨⟨s, hs⟩, Option.some.inj hw ▸ hwell⟩

theorem wellFormed_of_equals :
    (∀ a b : Value, a.Regular → b.Regular → equals a b = .ok true →
      a.WellFormed ∧ b.WellFormed) ∧
      (∀ xs ys : Entries, RegularEntries xs → RegularEntries ys →
        equalEntries xs ys = .ok true →
        WellFormedEntries xs ∧ ∀ k ∈ xs.map Prod.fst, ∃ w, lookup k ys = some w ∧ w.WellFormed) ∧
      ∀ xs ys : List Value, RegularItems xs → RegularItems ys → xs.length = ys.length →
        equalItems xs ys = .ok true → WellFormedItems xs ∧ WellFormedItems ys := by
  apply equals.mutual_induct
  case case1 => exact fun _ _ _ => ⟨trivial, trivial⟩
  case case2 | case3 => exact fun _ _ _ _ _ => ⟨trivial, trivial⟩
  case case4 =>
    intro _ _ xs _ _ ys hlength ih ha hb h
    rw [equals, if_pos hlength] at h
    exact ih ha hb (by simpa using hlength) h
  case case5 =>
    intro _ _ xs _ _ ys hlength _ _ h
    rw [equals, if_neg hlength] at h
    cases h
  case case6 =>
    intro _ _ xs _ _ ys hkeys ih ha hb h
    rw [equals, if_pos hkeys] at h
    obtain ⟨hxs, hmatched⟩ := ih ha.2 hb.2 h
    exact ⟨⟨ha.1, hxs⟩, hb.1, wellFormedEntries_of_matched hxs hb.2 ha.1 hb.1 hkeys hmatched⟩
  case case7 =>
    intro _ _ xs _ _ ys hkeys _ _ h
    rw [equals, if_neg hkeys] at h
    cases h
  case case8 =>
    -- only two numbers can be equal here
    intro a b h1 h2 h3 h4 h5 ha hb h
    rw [equals] at h
    · obtain ⟨kindA, -, h⟩ := bind_eq_ok h
      obtain ⟨kindB, -, h⟩ := bind_eq_ok h
      split at h
      · cases h
      · split at h
        · next x y hx hy =>
          have hequal : numbersEqual x y = true := Except.ok.inj h
          refine ⟨ha.wellFormed_of_number hx ?_, hb.wellFormed_of_number hy ?_⟩
          · rintro rfl
            rw [(numbersEqual_nan y).1] at hequal
            cases hequal
          · rintro rfl
            rw [(numbersEqual_nan x).2] at hequal
            cases hequal
        · cases h
    all_goals assumption
  case case9 =>
    intro x xs y ys ih ihs hx hy hlength h
    rw [equalItems] at h
    obtain ⟨same, hsame, h⟩ := bind_eq_ok h
    cases same with
    | false => cases h
    | true =>
      obtain ⟨hx', hy'⟩ := ih hx.1 hy.1 hsame
      obtain ⟨hxs', hys'⟩ := ihs hx.2 hy.2 (Nat.succ.inj hlength) h
      exact ⟨⟨hx', hxs'⟩, hy', hys'⟩
  case case10 =>
    intro xs ys h _ _ hlength _
    cases xs with
    | nil =>
      obtain rfl := List.length_eq_zero_iff.mp hlength.symm
      exact ⟨trivial, trivial⟩
    | cons x xs =>
      cases ys with
      | nil => cases hlength
      | cons y ys => exact (h x xs y ys rfl rfl).elim
  case case11 => exact fun _ _ _ _ => ⟨trivial, by simp⟩
  case case12 =>
    intro k v rest other w hw ih ihs hx hy h
    rw [equalEntries, hw] at h
    obtain ⟨same, hsame, h⟩ := bind_eq_ok h
    cases same with
    | false => cases h
    | true =>
      obtain ⟨hv', hw'⟩ := ih hx.2.1 (hy.lookup hw) hsame
      obtain ⟨hrest', hmatched⟩ := ihs hx.2.2 hy h
      exact ⟨⟨hx.1, hv', hrest'⟩, List.forall_mem_cons.mpr ⟨⟨w, hw, hw'⟩, hmatched⟩⟩
  case case13 =>
    intro k v rest other hw _ _ h
    rw [equalEntries, hw] at h
    cases h

section

variable {a b c : Value}

/-- **What equals anything has no NaN in it.** -/
theorem Regular.wellFormed_of_equals (ha : a.Regular) (hb : b.Regular)
    (h : equals a b = .ok true) : a.WellFormed ∧ b.WellFormed :=
  Value.wellFormed_of_equals.1 a b ha hb h

/-- **Equal values equal the same values.** -/
theorem Regular.equals_congr (ha : a.Regular) (hb : b.Regular) (hc : c.Regular)
    (h : equals b c = .ok true) : equals a b = .ok true ↔ equals a c = .ok true := by
  obtain ⟨hb', hc'⟩ := hb.wellFormed_of_equals hc h
  have hcontent := (equals_eq_true_iff hb' hc').mp h
  constructor
  · intro hab
    obtain ⟨ha', -⟩ := ha.wellFormed_of_equals hb hab
    rwa [equals_eq_true_iff ha' hc', ← hcontent, ← equals_eq_true_iff ha' hb']
  · intro hac
    obtain ⟨ha', -⟩ := ha.wellFormed_of_equals hc hac
    rwa [equals_eq_true_iff ha' hb', hcontent, ← equals_eq_true_iff ha' hc']

end

end Value

end Attest

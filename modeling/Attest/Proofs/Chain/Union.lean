import Mathlib.Data.List.Induction
import Attest.Chain.Union
import Attest.Proofs.Value.Equivalence

/-!
# The union keeps first occurrences

The pass over the groups compares a value with what it kept so far. That it might as well compare
it with everything earlier is because candidates are told apart by something that they have on
their own: a node by its number, another value by its content. NaN has nothing of the kind. It is
the same candidate as no value, not even as itself, and the pass keeps it every time.

First occurrences are defined by positions and do not mention the pass. Everything else that one
expects of a union is read off them.

## Main definitions

* `Value.Comparable` — values that comparing candidates is no fault for
* `Value.identity` — what tells candidates apart
* `Value.Same` — two values that are one candidate
* `Value.Counterpart` — two values that stand for each other in another order
* `firstOccurrences` — the values of a list that are the same candidate as none before

## Main results

* `Value.sameCandidate_decides` — two values are one candidate iff they have one identity
* `unite_eq` — the union is the first occurrences
* `unite_keeps_first_occurrences` — what follows for the candidates of several groups
* `firstOccurrences_perm` — the order of a list does not matter, up to the same candidate
-/

namespace Attest

namespace Value

/-! ### What tells candidates apart -/

/-- A value that comparing candidates is no fault for: a node, whatever is in it, or a scalar of
JSON, which may be NaN. -/
def Comparable : Value → Prop
  | .null | .bool _ | .int _ | .str _ | .array .. | .object .. => True
  | .float x => x ≠ .nan → x.IsNumber
  | _ => False

/-- What tells a candidate from others; NaN has nothing that does. -/
def identity : Value → Option (NodeId ⊕ Content)
  | .array node _ _ | .object node _ _ => some (.inl node)
  | .float .nan => none
  | v => some (.inr v.content)

/-- Two values are one candidate. -/
def Same (v w : Value) : Prop := v.sameCandidate w = .ok true

instance (v w : Value) : Decidable (v.Same w) :=
  inferInstanceAs (Decidable (v.sameCandidate w = .ok true))

/-- Two values that stand for each other: one candidate, or NaN twice. -/
def Counterpart (v w : Value) : Prop := v.Same w ∨ v = .float .nan ∧ w = .float .nan

section

variable {u v w : Value}

/-- The three sorts of candidates. -/
theorem Comparable.sorts (h : v.Comparable) :
    (∃ node, v.node? = some node ∧ v.identity = some (.inl node))
      ∨ (v.node? = none ∧ v.WellFormed ∧ v.identity = some (.inr v.content))
      ∨ v = .float .nan := by
  cases v with
  | array node | object node => exact .inl ⟨node, rfl, rfl⟩
  | null | bool | int | str => exact .inr (.inl ⟨rfl, trivial, rfl⟩)
  | float x =>
    cases x with
    | nan => exact .inr (.inr rfl)
    | finite | infinite => exact .inr (.inl ⟨rfl, h (nomatch ·), rfl⟩)
  | _ => exact h.elim

/-- NaN equals no value. -/
theorem equals_nan (h : w.Comparable) :
    equals (.float .nan) w = .ok false ∧ equals w (.float .nan) = .ok false := by
  cases w with
  | int n =>
    obtain ⟨hleft, hright⟩ := numbersEqual_nan (.inl n)
    exact ⟨congrArg Except.ok hleft, congrArg Except.ok hright⟩
  | float x => cases x <;> exact ⟨rfl, rfl⟩
  | null | bool | str | array | object => exact ⟨rfl, rfl⟩
  | _ => exact h.elim

theorem exists_some_iff {α : Type} (a b : α) : (∃ i, some a = some i ∧ some b = some i) ↔ a = b :=
  ⟨fun ⟨_, ha, hb⟩ => Option.some.inj (ha.trans hb.symm), fun h => ⟨a, rfl, h ▸ rfl⟩⟩

/-- **Two values are one candidate iff they have one identity.** -/
theorem sameCandidate_decides (hv : v.Comparable) (hw : w.Comparable) :
    Decides (v.sameCandidate w) (∃ i, v.identity = some i ∧ w.identity = some i) := by
  unfold sameCandidate
  rcases hv.sorts with ⟨node, hnode, hi⟩ | ⟨hnode, hwell, hi⟩ | rfl
  · rcases hw.sorts with ⟨node', hnode', hi'⟩ | ⟨hnode', -, hi'⟩ | rfl
    · rw [hnode, hnode', hi, hi']
      exact (decides_ok (node == node')).congr (by rw [exists_some_iff]; simp)
    · rw [hnode, hnode', hi, hi']
      exact (decides_ok false).congr (by simp)
    · rw [hnode]
      exact (decides_ok false).congr (by simp [identity])
  · rcases hw.sorts with ⟨node', hnode', hi'⟩ | ⟨hnode', hwell', hi'⟩ | rfl
    · rw [hnode, hnode', hi, hi']
      exact (decides_ok false).congr (by simp)
    · rw [hnode, hnode', hi, hi']
      exact (equals_iff_content_eq hwell hwell').congr (by rw [exists_some_iff]; simp)
    · rw [hnode]
      exact ⟨false, (equals_nan hv).2, by simp [identity]⟩
  · cases hnode' : w.node? with
    | some node' => exact (decides_ok false).congr (by simp [identity])
    | none => exact ⟨false, (equals_nan hw).1, by simp [identity]⟩

theorem same_decides (hv : v.Comparable) (hw : w.Comparable) :
    Decides (v.sameCandidate w) (v.Same w) := by
  obtain ⟨r, hr, -⟩ := sameCandidate_decides hv hw
  exact ⟨r, hr, by rw [Same, hr, Except.ok.injEq]⟩

theorem same_iff (hv : v.Comparable) (hw : w.Comparable) :
    v.Same w ↔ ∃ i, v.identity = some i ∧ w.identity = some i := by
  obtain ⟨r, hr, hi⟩ := sameCandidate_decides hv hw
  rw [Same, hr, Except.ok.injEq, hi]

/-- Only NaN has no identity. -/
theorem eq_nan (hv : v.Comparable) (h : v.identity = none) : v = .float .nan := by
  rcases hv.sorts with ⟨_, _, hi⟩ | ⟨_, _, hi⟩ | hnan
  · cases hi.symm.trans h
  · cases hi.symm.trans h
  · exact hnan

/-- All comparable values but NaN are the same candidate as themselves. -/
theorem same_refl (hv : v.Comparable) (hnan : v ≠ .float .nan) : v.Same v := by
  rw [same_iff hv hv]
  rcases hv.sorts with ⟨node, -, hi⟩ | ⟨-, -, hi⟩ | h
  · exact ⟨_, hi, hi⟩
  · exact ⟨_, hi, hi⟩
  · exact (hnan h).elim

theorem counterpart_of_identity_eq (hv : v.Comparable) (hw : w.Comparable)
    (h : v.identity = w.identity) : v.Counterpart w := by
  cases hi : v.identity with
  | some i => exact .inl ((same_iff hv hw).mpr ⟨i, hi, h ▸ hi⟩)
  | none => exact .inr ⟨eq_nan hv hi, eq_nan hw (h ▸ hi)⟩

theorem Same.symm (hvw : v.Same w) (hv : v.Comparable) (hw : w.Comparable) : w.Same v := by
  obtain ⟨i, hvi, hwi⟩ := (same_iff hv hw).mp hvw
  exact (same_iff hw hv).mpr ⟨i, hwi, hvi⟩

theorem Same.trans (huv : u.Same v) (hvw : v.Same w) (hu : u.Comparable) (hv : v.Comparable)
    (hw : w.Comparable) : u.Same w := by
  obtain ⟨i, hui, hvi⟩ := (same_iff hu hv).mp huv
  obtain ⟨j, hvj, hwj⟩ := (same_iff hv hw).mp hvw
  obtain rfl : i = j := Option.some.inj (hvi.symm.trans hvj)
  exact (same_iff hu hw).mpr ⟨i, hui, hwj⟩

end

end Value

open Value (Same Comparable Counterpart)

/-! ### First occurrences -/

/-- The values of a list that are the same candidate as no value at an earlier place. -/
def firstOccurrences (l : List Value) : List Value :=
  (l.zipIdx.filter fun (v, i) => decide (∀ w ∈ l.take i, ¬v.Same w)).map Prod.fst

theorem firstOccurrences_sublist (l : List Value) : (firstOccurrences l).Sublist l := by
  have h := (List.filter_sublist (l := l.zipIdx)
    (p := fun (v, i) => decide (∀ w ∈ l.take i, ¬v.Same w))).map Prod.fst
  rwa [List.zipIdx_map_fst] at h

/-- What comes before a value decides whether it is kept. -/
theorem firstOccurrences_concat (l : List Value) (v : Value) :
    firstOccurrences (l ++ [v])
      = firstOccurrences l ++ if ∃ w ∈ l, v.Same w then [] else [v] := by
  have hearlier : ∀ e ∈ l.zipIdx, (decide (∀ w ∈ (l ++ [v]).take e.2, ¬e.1.Same w))
      = decide (∀ w ∈ l.take e.2, ¬e.1.Same w) := by
    intro e he
    have hlt : e.2 < l.length := by simpa using List.snd_lt_of_mem_zipIdx he
    rw [List.take_append_of_le_length (Nat.le_of_lt hlt)]
  rw [firstOccurrences, List.zipIdx_append, List.filter_append, List.map_append,
    List.filter_congr hearlier]
  congr 1
  rw [List.zipIdx_singleton, List.filter_singleton]
  simp only [Nat.zero_add, List.take_left]
  by_cases h : ∃ w ∈ l, v.Same w
  · have hseen : ¬∀ w ∈ l, ¬v.Same w := by simpa using h
    rw [if_pos h, decide_eq_false hseen]
    rfl
  · have hnew : ∀ w ∈ l, ¬v.Same w := by simpa using h
    rw [if_neg h, decide_eq_true hnew]
    rfl

/-- A longer list only adds to what is kept. -/
theorem firstOccurrences_prefix_append (l more : List Value) :
    firstOccurrences l <+: firstOccurrences (l ++ more) := by
  induction more using List.reverseRecOn with
  | nil => simp
  | append_singleton more v ih =>
    rw [← List.append_assoc, firstOccurrences_concat]
    exact ih.trans (List.prefix_append ..)

section

variable {l l' more : List Value} {v : Value}

theorem forall_mem_concat {P : Value → Prop} : (∀ w ∈ l ++ [v], P w) ↔ (∀ w ∈ l, P w) ∧ P v := by
  rw [List.forall_mem_append, List.forall_mem_singleton]

/-- **What was kept will do:** a value is the same candidate as something in the list iff it is the
same candidate as something that was kept. -/
theorem exists_same_firstOccurrences_iff (hl : ∀ w ∈ l, w.Comparable) (hv : v.Comparable) :
    (∃ w ∈ firstOccurrences l, v.Same w) ↔ ∃ w ∈ l, v.Same w := by
  constructor
  · rintro ⟨w, hw, hsame⟩
    exact ⟨w, (firstOccurrences_sublist l).subset hw, hsame⟩
  induction l using List.reverseRecOn with
  | nil => exact id
  | append_singleton l u ih =>
    obtain ⟨hearlier, hu⟩ := forall_mem_concat.mp hl
    have hkept : firstOccurrences l ⊆ firstOccurrences (l ++ [u]) :=
      (firstOccurrences_prefix_append l [u]).subset
    rintro ⟨w, hw, hvw⟩
    rcases List.mem_append.mp hw with hw | hw
    · obtain ⟨x, hx, hvx⟩ := ih hearlier ⟨w, hw, hvw⟩
      exact ⟨x, hkept hx, hvx⟩
    · obtain rfl := List.mem_singleton.mp hw
      by_cases hseen : ∃ x ∈ l, w.Same x
      · -- the last value was dropped, and what it was dropped for serves as well
        obtain ⟨x, hx, hwx⟩ := hseen
        obtain ⟨y, hy, hvy⟩ :=
          ih hearlier ⟨x, hx, hvw.trans hwx hv hu (hearlier x hx)⟩
        exact ⟨y, hkept hy, hvy⟩
      · exact ⟨w, by simp [firstOccurrences_concat, hseen], hvw⟩

/-- Nothing is kept twice. -/
theorem pairwise_firstOccurrences (hl : ∀ w ∈ l, w.Comparable) :
    (firstOccurrences l).Pairwise fun v w => ¬v.Same w := by
  induction l using List.reverseRecOn with
  | nil => exact .nil
  | append_singleton l u ih =>
    obtain ⟨hearlier, hu⟩ := forall_mem_concat.mp hl
    rw [firstOccurrences_concat]
    split
    · simpa using ih hearlier
    · next hnew =>
      refine List.pairwise_append.mpr ⟨ih hearlier, List.pairwise_singleton .., ?_⟩
      intro v hv w hw hsame
      obtain rfl := List.mem_singleton.mp hw
      have hmem := (firstOccurrences_sublist l).subset hv
      exact hnew ⟨v, hmem, hsame.symm (hearlier v hmem) hu⟩

theorem firstOccurrences_idem (hl : ∀ w ∈ l, w.Comparable) :
    firstOccurrences (firstOccurrences l) = firstOccurrences l := by
  induction l using List.reverseRecOn with
  | nil => rfl
  | append_singleton l u ih =>
    obtain ⟨hl, hu⟩ := forall_mem_concat.mp hl
    rw [firstOccurrences_concat]
    split
    · rw [List.append_nil, ih hl]
    · next hnew =>
      rw [← exists_same_firstOccurrences_iff hl hu] at hnew
      rw [firstOccurrences_concat, ih hl, if_neg hnew]

/-- Of a beginning of the list, what was kept is enough. -/
theorem firstOccurrences_append_left (hl : ∀ w ∈ l, w.Comparable)
    (hmore : ∀ w ∈ more, w.Comparable) :
    firstOccurrences (firstOccurrences l ++ more) = firstOccurrences (l ++ more) := by
  induction more using List.reverseRecOn with
  | nil => rw [List.append_nil, List.append_nil, firstOccurrences_idem hl]
  | append_singleton more v ih =>
    obtain ⟨hmore, hv⟩ := forall_mem_concat.mp hmore
    have hseen : (∃ w ∈ firstOccurrences l ++ more, v.Same w) ↔ ∃ w ∈ l ++ more, v.Same w := by
      simp only [List.mem_append, or_and_right, exists_or, exists_same_firstOccurrences_iff hl hv]
    rw [← List.append_assoc, ← List.append_assoc, firstOccurrences_concat, firstOccurrences_concat,
      ih hmore]
    simp only [hseen]

/-! ### The pass over the groups -/

theorem seenBefore_decides (hv : v.Comparable) : ∀ {l : List Value}, (∀ w ∈ l, w.Comparable) →
    Value.Decides (seenBefore v l) (∃ w ∈ l, v.Same w)
  | [], _ => (Value.decides_ok false).congr (by simp)
  | w :: rest, h => by
    obtain ⟨hw, hrest⟩ := List.forall_mem_cons.mp h
    rw [seenBefore]
    refine ((Value.same_decides hv hw).or (seenBefore_decides hv hrest)).congr ?_
    simp only [List.mem_cons, exists_eq_or_imp]

/-- **The pass keeps first occurrences.** What it has kept is always the first occurrences of what
it has been through. -/
theorem uniteFrom_firstOccurrences : ∀ {l seen : List Value}, (∀ w ∈ seen ++ l, w.Comparable) →
    uniteFrom (firstOccurrences seen) l = .ok (firstOccurrences (seen ++ l))
  | [], seen, _ => by rw [uniteFrom, List.append_nil]
  | v :: rest, seen, h => by
    rw [List.append_cons] at h ⊢
    obtain ⟨hseen, hv⟩ := forall_mem_concat.mp (List.forall_mem_append.mp h).1
    have hkept : ∀ w ∈ firstOccurrences seen, w.Comparable := fun w hw =>
      hseen w ((firstOccurrences_sublist seen).subset hw)
    obtain ⟨found, hfound, hiff⟩ := seenBefore_decides hv hkept
    rw [exists_same_firstOccurrences_iff hseen hv] at hiff
    rw [← uniteFrom_firstOccurrences h, uniteFrom, hfound, firstOccurrences_concat]
    cases found with
    | true => rw [if_pos (hiff.mp rfl), List.append_nil]; rfl
    | false => rw [if_neg fun h => nomatch hiff.mpr h]; rfl

/-- **The union is the first occurrences** in the groups, one after the other. -/
theorem unite_eq {groups : List (List Value)} (h : ∀ v ∈ groups.flatten, v.Comparable) :
    unite groups = .ok (firstOccurrences groups.flatten) := by
  have hpass : ∀ v ∈ [] ++ groups.flatten, v.Comparable := h
  exact uniteFrom_firstOccurrences hpass

/-- **The union keeps exactly the first occurrences.** The union of groups of comparable values is
never a fault: it is the groups, one after the other, without the values that are the same candidate
as an earlier one. So no two of its values are the same candidate, whatever was in the groups is the
same candidate as one of them unless it is NaN, their order is that of the first occurrences, how
the values were grouped does not matter, a union can be taken in steps, and more groups only add to
it. -/
theorem unite_keeps_first_occurrences {groups : List (List Value)}
    (h : ∀ v ∈ groups.flatten, v.Comparable) :
    ∃ merged, unite groups = .ok merged
      ∧ merged = firstOccurrences groups.flatten
      ∧ merged.Pairwise (fun v w => ¬v.Same w)
      ∧ (∀ v ∈ groups.flatten, v ≠ .float .nan → ∃ w ∈ merged, v.Same w)
      ∧ merged.Sublist groups.flatten
      ∧ (∀ groups' : List (List Value), groups'.flatten = groups.flatten →
          unite groups' = .ok merged)
      ∧ (∀ others : List (List Value), (∀ v ∈ others.flatten, v.Comparable) →
          unite (merged :: others) = unite (groups ++ others))
      ∧ ∀ group : List Value, (∀ v ∈ group, v.Comparable) →
          ∃ more, unite (groups ++ [group]) = .ok (merged ++ more) := by
  have hkept : ∀ w ∈ firstOccurrences groups.flatten, w.Comparable := fun w hw =>
    h w ((firstOccurrences_sublist _).subset hw)
  refine ⟨_, unite_eq h, rfl, pairwise_firstOccurrences h, ?_, firstOccurrences_sublist _, ?_, ?_,
    ?_⟩
  · intro v hv hnan
    exact (exists_same_firstOccurrences_iff h (h v hv)).mpr ⟨v, hv, Value.same_refl (h v hv) hnan⟩
  · intro groups' hflatten
    rw [unite_eq (hflatten ▸ h), hflatten]
  · intro others hothers
    rw [unite_eq, unite_eq, List.flatten_cons, List.flatten_append,
      firstOccurrences_append_left h hothers]
    · rw [List.flatten_append]
      exact List.forall_mem_append.mpr ⟨h, hothers⟩
    · exact List.forall_mem_append.mpr ⟨hkept, hothers⟩
  · intro group hgroup
    obtain ⟨more, hmore⟩ := firstOccurrences_prefix_append groups.flatten group
    refine ⟨more, ?_⟩
    rw [unite_eq, hmore, List.flatten_append, List.flatten_singleton]
    rw [List.flatten_append, List.flatten_singleton]
    exact List.forall_mem_append.mpr ⟨h, hgroup⟩

/-- Two equal lists at different places, a list met twice, a number in both its forms, a truth value
beside it, and NaN. -/
theorem unite_keeps_first_occurrences_mixed :
    let list (node : NodeId) := Value.array node .list [.null]
    let one := Value.float (.finite false (2 ^ 52) (-52))
    let nan := Value.float .nan
    unite [[.int 1, list 1, nan], [one, list 2, .bool true, list 1, nan]]
      = .ok [.int 1, list 1, nan, list 2, .bool true, nan] := by
  intro list one nan
  have hcomparable : ∀ v ∈ [[.int 1, list 1, nan], [one, list 2, .bool true, list 1, nan]].flatten,
      v.Comparable := by
    simp [list, one, nan, Comparable, Double.IsNumber, Double.mantissaBound, Double.minExponent,
      Double.maxExponent]
  obtain ⟨merged, hunion, hmerged, -⟩ := unite_keeps_first_occurrences hcomparable
  rw [hunion, hmerged]
  rfl

/-! ### Other orders -/

theorem exists_same_iff (hl : ∀ w ∈ l, w.Comparable) (hv : v.Comparable) :
    (∃ w ∈ l, v.Same w) ↔ v.identity ≠ none ∧ v.identity ∈ l.map Value.identity := by
  constructor
  · rintro ⟨w, hw, hsame⟩
    obtain ⟨i, hvi, hwi⟩ := (Value.same_iff hv (hl w hw)).mp hsame
    exact ⟨by simp [hvi], List.mem_map.mpr ⟨w, hw, hwi.trans hvi.symm⟩⟩
  · rintro ⟨hsome, hmem⟩
    obtain ⟨i, hvi⟩ := Option.ne_none_iff_exists'.mp hsome
    obtain ⟨w, hw, hwv⟩ := List.mem_map.mp hmem
    exact ⟨w, hw, (Value.same_iff hv (hl w hw)).mpr ⟨i, hvi, hwv.trans hvi⟩⟩

/-- An identity is kept once if it occurs at all; what has none is kept every time. -/
theorem count_identity_firstOccurrences [DecidableEq (Option (NodeId ⊕ Value.Content))]
    (hl : ∀ w ∈ l, w.Comparable) (i : Option (NodeId ⊕ Value.Content)) :
    ((firstOccurrences l).map Value.identity).count i
      = if i = none then (l.map Value.identity).count i
        else if i ∈ l.map Value.identity then 1 else 0 := by
  induction l using List.reverseRecOn with
  | nil => simp [firstOccurrences]
  | append_singleton l v ih =>
    obtain ⟨hearlier, hv⟩ := forall_mem_concat.mp hl
    rw [firstOccurrences_concat, List.map_append, List.count_append, ih hearlier, List.map_append,
      apply_ite (List.map Value.identity), List.map_singleton, List.map_nil]
    simp only [exists_same_iff hearlier hv]
    generalize l.map Value.identity = earlier
    generalize v.identity = j
    grind

/-- **The order of a list does not matter:** the first occurrences in two orders match one to one. -/
theorem firstOccurrences_perm (hl : ∀ w ∈ l, w.Comparable) (h : l.Perm l') :
    ∃ m, m.Perm (firstOccurrences l') ∧ List.Forall₂ Counterpart (firstOccurrences l) m := by
  let : DecidableEq (Option (NodeId ⊕ Value.Content)) := Classical.decEq _
  have hl' : ∀ w ∈ l', w.Comparable := fun w hw => hl w (h.mem_iff.mpr hw)
  have hids : ((firstOccurrences l).map Value.identity).Perm
      ((firstOccurrences l').map Value.identity) := by
    refine List.perm_iff_count.mpr fun i => ?_
    have hmap := h.map Value.identity
    rw [count_identity_firstOccurrences hl, count_identity_firstOccurrences hl', hmap.count_eq]
    simp only [hmap.mem_iff]
  have hself : List.Forall₂ (fun i v => i = Value.identity v)
      ((firstOccurrences l').map Value.identity) (firstOccurrences l') :=
    List.forall₂_map_left_iff.mpr (List.forall₂_same.mpr fun _ _ => rfl)
  obtain ⟨m, hm, hperm⟩ := List.perm_comp_forall₂ hids hself
  refine ⟨m, hperm, List.forall₂_iff_zip.mpr ⟨?_, fun {v w} hvw => ?_⟩⟩
  · simpa using hm.length_eq
  · obtain ⟨hv, hw⟩ := List.of_mem_zip hvw
    have hid : v.identity = w.identity := List.forall₂_zip (List.forall₂_map_left_iff.mp hm) hvw
    exact Value.counterpart_of_identity_eq (hl v ((firstOccurrences_sublist l).subset hv))
      (hl' w ((firstOccurrences_sublist l').subset (hperm.subset hw))) hid

/-- Where nothing is NaN, values that stand for each other are the same candidate. -/
theorem forall₂_same_of_ne_nan {m : List Value} (hl : ∀ v ∈ l, v ≠ .float .nan)
    (h : List.Forall₂ Counterpart l m) : List.Forall₂ Same l m :=
  ((List.forall₂_and_left l m).mpr ⟨hl, h⟩).imp fun _ _ hvw =>
    hvw.2.resolve_right fun hnan => hvw.1 hnan.1

end

end Attest

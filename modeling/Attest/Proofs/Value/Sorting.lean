import Mathlib.Data.List.Perm.Basic
import Attest.Proofs.Value.Shown
import Attest.Value.Order

/-!
# Keys that can be sorted

Keys have an order only among others of their sort, and sorting is interrupted by any two keys that
have none. It need not meet every pair to notice: each key that is put in its place is compared with
one that was there, so if two sorts occur at all, a comparison comes across both.

A single key is sorted without a comparison, also one that has no order with itself, such as null.

## Main definitions

* `KeySort`, `Value.keySort?` — the sorts, and that of a value
* `Value.Sortable` — one key, or keys of one sort

## Main results

* `Value.compareKeys?_isSome_iff` — two keys have an order iff they are of one sort
* `Value.succeeds_sortEntries_iff`, `sortEntries_perm` — when entries are sorted, and that none is
  lost
* `Value.succeeds_sortKeys_iff`, `sortKeys_perm` — the same for keys alone
-/

namespace Attest

/-- The sorts of keys. A moment whose distance from universal time is known has no order with one
of which it is not. -/
inductive KeySort where
  | text
  | bytes
  | date
  | moment (known : Bool)
  | number
  deriving DecidableEq, Repr

namespace Value

/-- The sort of a value that has an order with others. -/
def keySort? : Value → Option KeySort
  | .str _ => some .text
  | .bytes _ => some .bytes
  | .date _ => some .date
  | .timestamp t => some (.moment t.offset.isSome)
  | .bool _ | .int _ | .float _ => some .number
  | _ => none

theorem keySort?_eq_number_iff {v : Value} : v.keySort? = some .number ↔ v.number?.isSome := by
  cases v <;> simp [keySort?, number?]

/-- **Two keys have an order iff they are of one sort.** -/
theorem compareKeys?_isSome_iff {a b : Value} :
    (compareKeys? a b).isSome ↔ ∃ s, a.keySort? = some s ∧ b.keySort? = some s := by
  unfold compareKeys?
  split
  case h_1 | h_2 | h_3 => exact ⟨fun _ => ⟨_, rfl, rfl⟩, fun _ => rfl⟩
  case h_4 x y =>
    simp only [keySort?, Option.some.injEq]
    split
    · next h => exact ⟨fun _ => ⟨_, rfl, congrArg _ h.symm⟩, fun _ => rfl⟩
    · next h =>
      refine ⟨(nomatch ·), ?_⟩
      rintro ⟨_, rfl, hy⟩
      exact absurd (KeySort.moment.inj hy).symm h
  case h_5 htext hbytes hdate hmoment =>
    constructor
    · intro h
      refine ⟨.number, ?_, ?_⟩ <;> rw [keySort?_eq_number_iff] <;> split at h <;> simp_all
    · -- the sorts before were met by the cases before, so this one is of numbers
      rintro ⟨s, ha, hb⟩
      have hs : s = .number := by
        cases a <;> cases ha <;> cases b <;> simp_all [keySort?]
      rw [hs, keySort?_eq_number_iff, Option.isSome_iff_exists] at ha hb
      obtain ⟨x, hx⟩ := ha
      obtain ⟨y, hy⟩ := hb
      simp [hx, hy]

/-! ### Putting entries in their places -/

section Entries

variable {α : Type} {s : KeySort} {e other : Value × α} {rest sorted result : List (Value × α)}

theorem placeEntry_perm (h : placeEntry e sorted = .ok result) : result.Perm (e :: sorted) := by
  induction sorted generalizing result with
  | nil =>
    cases h
    exact .refl _
  | cons other rest ih =>
    rw [placeEntry] at h
    split at h
    · cases h
      exact .refl _
    · obtain ⟨placed, hplaced, hresult⟩ := bind_eq_ok h
      cases hresult
      exact ((ih hplaced).cons other).trans (.swap e other rest)
    · cases h

/-- Among entries of its sort there is a place for an entry. -/
theorem succeeds_placeEntry (he : e.1.keySort? = some s)
    (hs : ∀ o ∈ sorted, o.1.keySort? = some s) : Succeeds (placeEntry e sorted) := by
  induction sorted with
  | nil => exact succeeds_ok _
  | cons other rest ih =>
    obtain ⟨ho, hrest⟩ := List.forall_mem_cons.mp hs
    obtain ⟨order, horder⟩ :=
      Option.isSome_iff_exists.mp (compareKeys?_isSome_iff.mpr ⟨s, he, ho⟩)
    rw [placeEntry, horder]
    cases order with
    | lt => exact succeeds_ok _
    | eq | gt => exact (ih hrest).map (other :: ·)

/-- An entry is compared with the first one at least. -/
theorem compareKeys?_of_placeEntry (h : Succeeds (placeEntry e (other :: rest))) :
    (compareKeys? e.1 other.1).isSome := by
  rw [placeEntry] at h
  split at h
  · next ho => rw [ho]; rfl
  · next ho => rw [ho]; rfl
  · exact absurd h (not_succeeds_error _)

/-- Further entries are sorted in iff they are of the sort of those that are there. -/
theorem succeeds_foldlM_placeEntry_iff {entries : List (Value × α)} (hne : sorted ≠ [])
    (hs : ∀ o ∈ sorted, o.1.keySort? = some s) :
    Succeeds (entries.foldlM (fun sorted entry => placeEntry entry sorted) sorted) ↔
      ∀ e ∈ entries, e.1.keySort? = some s := by
  induction entries generalizing sorted with
  | nil => exact iff_of_true (succeeds_ok _) (by simp)
  | cons e entries ih =>
    rw [List.foldlM_cons, succeeds_bind_iff, List.forall_mem_cons]
    have hplaced : ∀ {placed}, placeEntry e sorted = .ok placed → e.1.keySort? = some s →
        (Succeeds (entries.foldlM (fun sorted entry => placeEntry entry sorted) placed) ↔
          ∀ e ∈ entries, e.1.keySort? = some s) := by
      intro placed hp he
      have hperm := placeEntry_perm hp
      refine ih (fun hnil => ?_) fun o ho => ?_
      · rw [hnil] at hperm
        exact absurd hperm.length_eq (by simp)
      · rcases List.mem_cons.mp (hperm.mem_iff.mp ho) with rfl | ho
        · exact he
        · exact hs o ho
    constructor
    · rintro ⟨placed, hp, hrest⟩
      have he : e.1.keySort? = some s := by
        obtain ⟨other, rest, rfl⟩ := List.exists_cons_of_ne_nil hne
        obtain ⟨t, het, hot⟩ := compareKeys?_isSome_iff.mp (compareKeys?_of_placeEntry ⟨_, hp⟩)
        rw [het, ← hot]
        exact hs other List.mem_cons_self
      exact ⟨he, (hplaced hp he).mp hrest⟩
    · rintro ⟨he, hrest⟩
      obtain ⟨placed, hp⟩ := succeeds_placeEntry he hs
      exact ⟨placed, hp, (hplaced hp he).mpr hrest⟩

theorem foldlM_placeEntry_perm {entries : List (Value × α)}
    (h : entries.foldlM (fun sorted entry => placeEntry entry sorted) sorted = .ok result) :
    result.Perm (entries ++ sorted) := by
  induction entries generalizing sorted with
  | nil =>
    cases h
    exact .refl _
  | cons e entries ih =>
    rw [List.foldlM_cons] at h
    obtain ⟨placed, hp, hresult⟩ := bind_eq_ok h
    exact (ih hresult).trans (((placeEntry_perm hp).append_left entries).trans List.perm_middle)

end Entries

/-! ### Sorting keys -/

/-- A single key, or keys of one sort. -/
def Sortable (keys : List Value) : Prop :=
  keys.length ≤ 1 ∨ ∃ s, ∀ k ∈ keys, k.keySort? = some s

/-- **Entries are sorted iff there is a single one, or their keys are of one sort.** -/
theorem succeeds_sortEntries_iff {α : Type} {entries : List (Value × α)} :
    Succeeds (sortEntries entries) ↔ Sortable (entries.map Prod.fst) := by
  rw [sortEntries]
  match entries with
  | [] => exact iff_of_true (succeeds_ok _) (.inl (Nat.zero_le 1))
  | [_] => exact iff_of_true (succeeds_ok _) (.inl (Nat.le_refl 1))
  | e :: f :: rest =>
    have hfirst : ∀ s, e.1.keySort? = some s →
        (Succeeds ((e :: f :: rest).foldlM (fun sorted entry => placeEntry entry sorted) []) ↔
            ∀ o ∈ f :: rest, o.1.keySort? = some s) := by
      intro s he
      exact succeeds_foldlM_placeEntry_iff (List.cons_ne_nil e []) (by simpa using he)
    constructor
    · intro h
      have hpair : Succeeds (placeEntry f [e]) := by
        obtain ⟨_, hfirst, h⟩ := succeeds_bind_iff.mp h
        cases hfirst
        obtain ⟨placed, hp, _⟩ := succeeds_bind_iff.mp h
        exact ⟨placed, hp⟩
      obtain ⟨s, _, he⟩ := compareKeys?_isSome_iff.mp (compareKeys?_of_placeEntry hpair)
      exact .inr ⟨s, List.forall_mem_map.mpr (List.forall_mem_cons.mpr ⟨he, (hfirst s he).mp h⟩)⟩
    · rintro (hlength | ⟨s, hs⟩)
      · simp at hlength
      · obtain ⟨he, hrest⟩ := List.forall_mem_cons.mp (List.forall_mem_map.mp hs)
        exact (hfirst s he).mpr hrest

/-- Sorting loses no entry and adds none. -/
theorem sortEntries_perm {α : Type} {entries sorted : List (Value × α)}
    (h : sortEntries entries = .ok sorted) : sorted.Perm entries := by
  simpa using foldlM_placeEntry_perm h

/-- Where an entry goes does not depend on what is under its key. -/
theorem placeEntry_map {α β : Type} (f : α → β) (e : Value × α) (sorted : List (Value × α)) :
    placeEntry (e.1, f e.2) (sorted.map fun e => (e.1, f e.2))
      = (placeEntry e sorted).map (List.map fun e => (e.1, f e.2)) := by
  induction sorted with
  | nil => rfl
  | cons other rest ih =>
    rw [List.map_cons, placeEntry, placeEntry, ih]
    rcases compareKeys? e.1 other.1 with _ | _ | _ | _
    · rfl
    · rfl
    all_goals cases placeEntry e rest <;> rfl

/-- So entries are sorted without regard to what is under their keys. -/
theorem sortEntries_map {α β : Type} (f : α → β) (entries : List (Value × α)) :
    sortEntries (entries.map fun e => (e.1, f e.2))
      = (sortEntries entries).map (List.map fun e => (e.1, f e.2)) := by
  have hfold : ∀ sorted : List (Value × α),
      (entries.map fun e => (e.1, f e.2)).foldlM (fun sorted entry => placeEntry entry sorted)
          (sorted.map fun e => (e.1, f e.2))
        = (entries.foldlM (fun sorted entry => placeEntry entry sorted) sorted).map
            (List.map fun e => (e.1, f e.2)) := by
    induction entries with
    | nil => exact fun _ => rfl
    | cons e entries ih =>
      intro sorted
      rw [List.map_cons, List.foldlM_cons, List.foldlM_cons, placeEntry_map]
      cases placeEntry e sorted with
      | error fault => rfl
      | ok placed => exact ih placed
  exact hfold []

/-- **So are keys.** -/
theorem succeeds_sortKeys_iff {keys : List Value} : Succeeds (sortKeys keys) ↔ Sortable keys := by
  rw [sortKeys, succeeds_map_iff, succeeds_sortEntries_iff, List.map_map]
  simp [Function.comp_def]

/-- Sorting loses no key and adds none. -/
theorem sortKeys_perm {keys sorted : List Value} (h : sortKeys keys = .ok sorted) :
    sorted.Perm keys := by
  obtain ⟨entries, hentries, rfl⟩ := map_eq_ok h
  have hperm := (sortEntries_perm hentries).map Prod.fst
  simpa [Function.comp_def] using hperm

end Value

end Attest

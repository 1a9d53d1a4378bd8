import Mathlib.Logic.Relation
import Attest.Proofs.Path

/-!
# Slashes in paths

A slash does two things: it ends a segment, and next to another slash or at an end of the path it
does nothing. The first makes paths compose, and the second means that one sequence of segments is
written in many ways. Which ways these are is said by a relation on paths that knows nothing of
segments, only that a slash can be added in front, at the end or beside another one; and two paths
have the same segments exactly if they are related.

## Main definitions

* `Path.SlashAdded`, `Path.SlashesApart` — one slash more, and any number more or fewer
* `Path.Readable` — all indexes of a path can be read

## Main results

* `Path.segmentsOf_eq` — segments are what is between slashes, without the empty pieces
* `Path.walk_append` — segments are followed one after the other
* `Path.slashesApart_iff` — paths with the same segments differ in slashes only
* `Path.paths_compose` — paths compose, and slashes normalise
-/

namespace Attest

namespace Path

/-! ### Pieces -/

theorem pieces_eq_splitOn : ∀ path : List Char, pieces path = path.splitOn '/'
  | [] => rfl
  | c :: rest => by
    rw [pieces, List.splitOn_cons_eq_if_modifyHead, pieces_eq_splitOn rest]
    simp only [beq_iff_eq]
    split
    · rfl
    · cases hrest : rest.splitOn '/' with
      | nil => exact absurd hrest (List.splitOn_ne_nil '/' rest)
      | cons piece others => rfl

/-- **Segments are what is between slashes,** without the empty pieces. -/
theorem segmentsOf_eq (path : List Char) :
    segmentsOf path = (path.splitOn '/').filter (· ≠ []) := by
  rw [segmentsOf, pieces_eq_splitOn]

theorem segmentsOf_append (p q : List Char) :
    segmentsOf (p ++ '/' :: q) = segmentsOf p ++ segmentsOf q := by
  rw [segmentsOf_eq, segmentsOf_eq, segmentsOf_eq, List.splitOn_append_cons_self,
    List.filter_append]

theorem segmentsOf_slash_cons (p : List Char) : segmentsOf ('/' :: p) = segmentsOf p :=
  segmentsOf_append [] p

theorem segmentsOf_append_slash (p : List Char) : segmentsOf (p ++ ['/']) = segmentsOf p := by
  rw [segmentsOf_append]
  exact List.append_nil _

/-- A slash between two texts. -/
theorem toList_joined (p q : String) : (p ++ "/" ++ q).toList = p.toList ++ '/' :: q.toList := by
  simp

theorem segments_joined (p q : String) : segments (p ++ "/" ++ q) = segments p ++ segments q := by
  rw [segments, toList_joined, segmentsOf_append, List.map_append]
  rfl

/-! ### Following segments -/

/-- **Segments are followed one after the other,** up to the first that leads nowhere. -/
theorem walk_append {t : List (List Char)} : ∀ {s : List (List Char)} {v : Value},
    walk v (s ++ t) = do
      match ← walk v s with
      | some x => walk x t
      | none => return none
  | [], _ => rfl
  | segment :: rest, v => by
    rw [List.cons_append, walk, walk]
    cases descend v segment with
    | error fault => rfl
    | ok next =>
      cases next with
      | none => rfl
      | some next => exact walk_append

theorem follow_joined (v : Value) (p q : String) :
    follow v (p ++ "/" ++ q) = do
      match ← follow v p with
      | some x => follow x q
      | none => return none := by
  rw [follow, toList_joined, segmentsOf_append, walk_append]
  rfl

/-- All indexes of a path can be read: none of them has too many digits. -/
def Readable (path : String) : Prop := ∀ segment ∈ segmentsOf path.toList, ¬ Oversized segment

theorem indexParts?_length {segment digits : List Char} {negative : Bool}
    (h : indexParts? segment = some (negative, digits)) : digits.length ≤ segment.length := by
  unfold indexParts? at h
  split at h <;> split at h <;> cases h
  · exact Nat.le_succ _
  · exact Nat.le_refl _

/-- Only a long segment can have too many digits. -/
theorem not_oversized {segment : List Char} (h : segment.length ≤ digitLimit) :
    ¬ Oversized segment := by
  rintro ⟨negative, digits, hparts, hlong⟩
  have hlength := indexParts?_length hparts
  omega

theorem Readable.succeeds {path : String} (h : Readable path) (v : Value) :
    Succeeds (follow v path) := by
  rw [succeeds_follow_iff]
  rintro ⟨before, segment, after, _, _, _, hsegments, _, ho⟩
  exact h segment (by rw [hsegments]; simp) ho

/-! ### Paths that differ in slashes -/

/-- A path with one slash more: in front, at the end, or beside another one. -/
inductive SlashAdded : String → String → Prop where
  | front (p : String) : SlashAdded p ("/" ++ p)
  | back (p : String) : SlashAdded p (p ++ "/")
  | beside (p q : String) : SlashAdded (p ++ "/" ++ q) (p ++ "//" ++ q)

/-- Paths that differ only in leading, trailing and repeated slashes. -/
def SlashesApart : String → String → Prop := Relation.EqvGen SlashAdded

theorem SlashAdded.segmentsOf_eq {p q : String} (h : SlashAdded p q) :
    segmentsOf q.toList = segmentsOf p.toList := by
  cases h with
  | front =>
    rw [String.toList_append]
    exact segmentsOf_slash_cons _
  | back =>
    rw [String.toList_append]
    exact segmentsOf_append_slash _
  | beside p q =>
    have hbeside : (p ++ "//" ++ q).toList = p.toList ++ '/' :: '/' :: q.toList := by simp
    rw [hbeside, toList_joined, segmentsOf_append, segmentsOf_append, segmentsOf_slash_cons]

theorem SlashesApart.segmentsOf_eq {p q : String} (h : SlashesApart p q) :
    segmentsOf p.toList = segmentsOf q.toList := by
  induction h with
  | rel p q h => exact h.segmentsOf_eq.symm
  | refl => rfl
  | symm p q _ ih => exact ih.symm
  | trans p q r _ _ ihp ihq => exact ihp.trans ihq

/-- What is put in front of two paths, up to a slash, leaves them apart in slashes only. -/
theorem SlashesApart.after {p q : String} (h : SlashesApart p q) (first : String) :
    SlashesApart (first ++ "/" ++ p) (first ++ "/" ++ q) := by
  induction h with
  | rel p q h =>
    refine .rel _ _ ?_
    cases h with
    | front =>
      have htwo : first ++ "//" ++ p = first ++ "/" ++ ("/" ++ p) := by simp [← String.toList_inj]
      exact htwo ▸ .beside first p
    | back =>
      rw [← String.append_assoc]
      exact .back _
    | beside p q =>
      rw [← String.append_assoc, ← String.append_assoc, ← String.append_assoc,
        ← String.append_assoc]
      exact .beside _ _
  | refl => exact .refl _
  | symm p q _ ih => exact ih.symm
  | trans p q r _ _ ihp ihq => exact ihp.trans _ _ _ ihq

/-- Pieces between slashes may as well be without the empty ones. -/
theorem slashesApart_intercalate : ∀ pieces : List String,
    SlashesApart ("/".intercalate pieces) ("/".intercalate (pieces.filter (· ≠ "")))
  | [] => .refl _
  | [piece] => by
    by_cases hpiece : piece = ""
    · subst hpiece
      exact .refl _
    · rw [List.filter_cons_of_pos (by simpa using hpiece)]
      exact .refl _
  | piece :: next :: rest => by
    have ih := slashesApart_intercalate (next :: rest)
    have hapart := ih.after piece
    rw [String.intercalate_cons_cons]
    by_cases hpiece : piece = ""
    · rw [hpiece, List.filter_cons_of_neg (by simp), String.empty_append]
      exact .trans _ _ _ (.symm _ _ (.rel _ _ (.front _))) ih
    · rw [List.filter_cons_of_pos (by simpa using hpiece)]
      -- if all the other pieces are empty, only a slash at the end is left of them
      cases hrest : (next :: rest).filter (· ≠ "") with
      | nil =>
        rw [hrest] at hapart
        refine hapart.trans _ _ _ (.symm _ _ ?_)
        simpa using Relation.EqvGen.rel _ _ (SlashAdded.back piece)
      | cons =>
        rw [hrest] at hapart
        rw [String.intercalate_cons_cons]
        exact hapart

/-- A path differs in slashes only from its segments with single slashes between them. -/
theorem slashesApart_segments (path : String) :
    SlashesApart path ("/".intercalate (segments path)) := by
  have hpath : "/".intercalate ((path.toList.splitOn '/').map String.ofList) = path := by
    apply String.toList_injective
    rw [String.toList_intercalate, List.map_map]
    simp [Function.comp_def, List.intercalate_splitOn]
  have hsegments : ((path.toList.splitOn '/').map String.ofList).filter (· ≠ "")
      = segments path := by
    rw [segments, segmentsOf_eq, List.filter_map]
    refine congrArg _ (List.filter_congr fun piece _ => ?_)
    simp
  have hapart := slashesApart_intercalate ((path.toList.splitOn '/').map String.ofList)
  rwa [hpath, hsegments] at hapart

/-- **Paths have the same segments iff they differ in slashes only.** -/
theorem slashesApart_iff {p q : String} : SlashesApart p q ↔ segments p = segments q := by
  constructor
  · intro h
    rw [segments, segments, h.segmentsOf_eq]
  · intro h
    have hp := slashesApart_segments p
    rw [h] at hp
    exact hp.trans _ _ _ (slashesApart_segments q).symm

/-- **Paths compose, and slashes normalise.** A path, a slash and another path have the segments of
the one and then those of the other, so they lead to where the second path leads from what the
first one leads to, and nowhere if that leads nowhere. Paths that differ only in leading, trailing
and repeated slashes, and no others, have the same segments, and lead to the same value from
everywhere. -/
theorem paths_compose (p q : String) :
    segments (p ++ "/" ++ q) = segments p ++ segments q
      ∧ (∀ v, follow v (p ++ "/" ++ q) = do
          match ← follow v p with
          | some x => follow x q
          | none => return none)
      ∧ (Readable p → ∀ v, Succeeds (follow v p))
      ∧ (SlashesApart p q ↔ segments p = segments q)
      ∧ (SlashesApart p q → ∀ v, follow v p = follow v q) := by
  refine ⟨segments_joined p q, fun v => follow_joined v p q, Readable.succeeds, slashesApart_iff,
    fun h v => ?_⟩
  rw [follow, follow, h.segmentsOf_eq]

/-- A null at the end of a list, and the same path with slashes added everywhere. -/
theorem paths_compose_of_null :
    let v := Value.record [("crew", .list [.str "Dan", .null])]
    Readable "crew/-1" ∧ Succeeds (follow v "crew/-1") ∧ SlashesApart "crew/-1" "//crew///-1/"
      ∧ follow v "//crew///-1/" = .ok (some .null) := by
  intro v
  obtain ⟨-, -, hreads, hapart, hsame⟩ := paths_compose "crew/-1" "//crew///-1/"
  have hreadable : Readable "crew/-1" := fun segment hs => not_oversized (by
    revert segment
    decide)
  have hsegments : SlashesApart "crew/-1" "//crew///-1/" := hapart.mpr (by decide)
  refine ⟨hreadable, hreads hreadable v, hsegments, ?_⟩
  rw [← hsame hsegments v]
  rfl

end Path

end Attest

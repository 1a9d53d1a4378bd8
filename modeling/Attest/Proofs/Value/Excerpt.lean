import Attest.Proofs.Value.Shown

/-!
# How long excerpts are

An excerpt that is cut is exactly as long as it may be, its ellipsis counted. So the length of an
excerpt is the smaller one of the limit and the length of the whole text, and two limits give the
same excerpt only if they are equal or neither of them cuts.

## Main definitions

* `Value.Fits` — the whole text of a value is within a limit

## Main results

* `length_cutText` — the length of a text after it was cut
* `cutText_eq_iff` — when two limits come to the same
-/

namespace Attest

variable {limit m n : Int} {s : String}

/-! ### Cutting -/

theorem cutText_of_le (h : (s.length : Int) ≤ limit) : cutText limit s = s :=
  if_neg (Int.not_lt.mpr h)

theorem length_cutText_of_lt (hlimit : 3 ≤ limit) (h : limit < (s.length : Int)) :
    ((cutText limit s).length : Int) = limit := by
  have hellipsis : "...".length = 3 := rfl
  rw [cutText, if_pos h, takeBefore, if_pos (by omega), String.length_append, String.length_ofList,
    List.length_take, String.length_toList, hellipsis]
  omega

/-- **The length of a text that was cut.** -/
theorem length_cutText (hlimit : 3 ≤ limit) (s : String) :
    ((cutText limit s).length : Int) = min limit s.length := by
  rcases Int.lt_or_le limit s.length with h | h
  · rw [length_cutText_of_lt hlimit h]
    omega
  · rw [cutText_of_le h]
    omega

/-- **Two limits come to the same** if they are equal, or the text is within both. -/
theorem cutText_eq_iff (hm : 3 ≤ m) (hn : 3 ≤ n) :
    cutText m s = cutText n s ↔ m = n ∨ (s.length : Int) ≤ min m n := by
  refine ⟨fun h => ?_, ?_⟩
  · have hlength : min m (s.length : Int) = min n s.length := by
      rw [← length_cutText hm, ← length_cutText hn, h]
    omega
  · rintro (rfl | h)
    · rfl
    · have hfits : (s.length : Int) ≤ m ∧ (s.length : Int) ≤ n := by omega
      rw [cutText_of_le hfits.1, cutText_of_le hfits.2]

namespace Value

variable {v : Value} {text : String}

/-- The whole text of the value is within a limit. -/
def Fits (limit : Int) (v : Value) : Prop :=
  ∀ text, v.rendered = .ok text → (text.length : Int) ≤ limit

theorem excerpt_eq_ok (h : v.excerpt limit = .ok text) :
    ∃ whole, v.rendered = .ok whole ∧ text = cutText limit whole := by
  obtain ⟨whole, hwhole, htext⟩ := map_eq_ok h
  exact ⟨whole, hwhole, htext.symm⟩

theorem excerpt_of_rendered {whole : String} (h : v.rendered = .ok whole) (limit : Int) :
    v.excerpt limit = .ok (cutText limit whole) := by
  rw [excerpt, h]
  rfl

theorem fits_iff {whole : String} (h : v.rendered = .ok whole) :
    v.Fits limit ↔ (whole.length : Int) ≤ limit :=
  ⟨fun hfits => hfits whole h, fun hle text ht => by cases h.symm.trans ht; exact hle⟩

/-- An excerpt is within its limit. -/
theorem length_excerpt_le (hlimit : 3 ≤ limit) (h : v.excerpt limit = .ok text) :
    (text.length : Int) ≤ limit := by
  obtain ⟨whole, -, rfl⟩ := excerpt_eq_ok h
  rw [length_cutText hlimit]
  omega

/-- An excerpt for one limit is within another one if that is no less, or the whole text is. -/
theorem length_excerpt_le_iff (hm : 3 ≤ m) (h : v.excerpt m = .ok text) :
    (text.length : Int) ≤ n ↔ m ≤ n ∨ v.Fits n := by
  obtain ⟨whole, hwhole, rfl⟩ := excerpt_eq_ok h
  rw [length_cutText hm, fits_iff hwhole]
  omega

end Value

end Attest

import Attest.Proofs.Number.Rounding
import Attest.Proofs.Value.Floats
import Attest.Report.Basic

/-!
# Durations of runs

The instants of a clock have dates of the years from 1 to 9999, and so whatever lies between two of
them is a finite number of milliseconds.

## Main results

* `CalendarDate.days_bounds` — the days that have a date
* `Report.isFinite_milliseconds` — the milliseconds between two instants that have dates
-/

namespace Attest

namespace CalendarDate

/-- Days that have a date are not far from 1970. -/
theorem days_bounds {days : Int} (h : (ofDays days).isValid = true) :
    -719468 ≤ days ∧ days < 2933000 := by
  have hyear : 1 ≤ (ofDays days).year ∧ (ofDays days).year ≤ 9999 := by
    simp only [isValid, Bool.and_eq_true, decide_eq_true_eq] at h
    omega
  obtain ⟨hfirst, hlast⟩ := hyear
  simp only [ofDays] at hfirst hlast
  rw [Int.fdiv_eq_ediv_of_nonneg _ (by decide)] at hfirst hlast
  split at hfirst <;> omega

end CalendarDate

/-- Two instants that have dates are not too far apart. -/
theorem Instant.distance_lt {start stop : Instant} (hstart : start.timestamp.isValid = true)
    (hstop : stop.timestamp.isValid = true) :
    (stop.micros - start.micros).natAbs < 1000000 * 2 ^ 53 := by
  have hdays {i : Instant} (h : i.timestamp.isValid = true) :
      -719468 ≤ i.micros.fdiv 86400000000 ∧ i.micros.fdiv 86400000000 < 2933000 := by
    simp only [Timestamp.isValid, Bool.and_eq_true] at h
    exact CalendarDate.days_bounds h.1.1.1.1
  obtain ⟨h₁, h₂⟩ := hdays hstart
  obtain ⟨h₃, h₄⟩ := hdays hstop
  rw [Int.fdiv_eq_ediv_of_nonneg _ (by decide)] at h₁ h₂ h₃ h₄
  omega

namespace Double

variable {n d : Nat}

theorem isFinite_of_ne {x : Double} (hnan : x ≠ .nan) (hinfinite : ¬ ∃ t, x = .infinite t) :
    x.IsFinite := by
  cases x with
  | finite => trivial
  | infinite t => exact absurd ⟨t, rfl⟩ hinfinite
  | nan => exact absurd rfl hnan

/-- A small quotient is rounded to a number with a small exponent. -/
theorem ofRatio_small (hd : d ≠ 0) (h : n < d * 2 ^ 53) (s : Bool) :
    ∃ m e, ofRatio s n d = .finite s m e ∧ m < 2 ^ 53 ∧ e ≤ 1 := by
  have hnumber := isNumber_ofRatio hd s n
  rcases Nat.eq_zero_or_pos n with rfl | hpos
  · exact ⟨0, minExponent, if_pos rfl, by decide, by decide⟩
  · obtain ⟨e, hratio, hexponent⟩ := exists_exponent hpos.ne' hd s
    have he : e ≤ 0 := (hexponent 0).mpr (by simpa using h)
    rw [hratio] at hnumber ⊢
    have hmax : maxExponent = 971 := rfl
    simp only [assemble] at hnumber ⊢
    split at hnumber
    · next hbound =>
      rw [if_pos hbound, if_neg (by dsimp only; omega)] at *
      exact ⟨_, _, rfl, hnumber.1, by dsimp only; omega⟩
    · next hbound =>
      rw [if_neg hbound, if_neg (by dsimp only; omega)] at *
      exact ⟨_, _, rfl, hnumber.1, by dsimp only; omega⟩

theorem two_pow_le_overflowBound {k : Nat} (hk : k ≤ 970) : 2 ^ k ≤ overflowBound := by
  have hpow : 2 ^ k ≤ 2 ^ 970 := pow_le_pow_right₀ one_le_two hk
  rw [overflowBound_eq]
  generalize 2 ^ 970 = w at hpow ⊢
  omega

/-- A thousand times a number with a small exponent is finite. -/
theorem isFinite_mul_thousand {s : Bool} {m : Nat} {e : Int} (hm : m < 2 ^ 53) (he : e ≤ 1) :
    (mul (.finite s m e) (.ofDecimal false 1000 0)).IsFinite := by
  have hthousand : ofDecimal false 1000 0 = .finite false (1000 * 2 ^ 43) (-43) := by rfl
  obtain ⟨k, hk⟩ : ∃ k : Nat, e + -43 = -(k + 1 : Nat) := ⟨(42 - e).toNat, by omega⟩
  have hproduct : m * (1000 * 2 ^ 43) < Nat.pow 2 (k + 1) * overflowBound := by
    calc m * (1000 * 2 ^ 43) < 2 ^ 53 * (1000 * 2 ^ 43) :=
          Nat.mul_lt_mul_of_pos_right hm (by decide)
      _ ≤ 2 ^ 107 := by decide
      _ ≤ overflowBound := two_pow_le_overflowBound (by decide)
      _ ≤ Nat.pow 2 (k + 1) * overflowBound := Nat.le_mul_of_pos_left _ (Nat.two_pow_pos _)
  rw [hthousand, mul, hk, if_neg (by omega), Int.neg_neg, Int.toNat_natCast]
  have hunit : Nat.pow 2 (k + 1) ≠ 0 := (Nat.two_pow_pos _).ne'
  refine isFinite_of_ne (ofRatio_ne_nan _ _ _) ?_
  rw [ofRatio_infinite_iff hunit]
  exact Nat.not_le.mpr hproduct

end Double

/-- **The milliseconds between two instants that have dates** are finite. -/
theorem Report.isFinite_milliseconds {start stop : Instant}
    (hstart : start.timestamp.isValid = true) (hstop : stop.timestamp.isValid = true) :
    (milliseconds (stop.micros - start.micros)).IsFinite := by
  obtain ⟨m, e, hratio, hm, he⟩ := Double.ofRatio_small (by decide)
    (Instant.distance_lt hstart hstop) (decide (stop.micros - start.micros < 0))
  rw [milliseconds, hratio]
  exact Double.isFinite_mul_thousand hm he

end Attest

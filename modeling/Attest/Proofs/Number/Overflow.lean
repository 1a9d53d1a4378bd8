import Mathlib.Algebra.Order.Field.Power
import Attest.Proofs.Number.Comparison

/-!
# Literals beyond the range

A decimal literal is rounded to an infinity from the same magnitude on as an integer is refused. The
exponents that are far out of range are settled without computing a power; for these it has to be
shown that the number of binary digits bounds the number of decimal ones well enough.

## Main results

* `Double.ofDecimal_ne_nan` — a literal is never rounded to NaN
* `Double.ofDecimal_infinite_iff` — the literals that are rounded to an infinity
-/

namespace Attest

namespace Double

theorem overflowBound_le {k : Nat} (hk : 400 ≤ k) : overflowBound ≤ 10 ^ k := by
  calc overflowBound ≤ 2 ^ 1024 := Nat.sub_le ..
    _ ≤ 2 ^ (3 * k) := Nat.pow_le_pow_right (by decide) (by omega)
    _ = (2 ^ 3) ^ k := Nat.pow_mul ..
    _ ≤ 10 ^ k := Nat.pow_le_pow_left (by decide) k

theorem ofDecimal_ne_nan (s : Bool) (digits : Nat) (exponent : Int) :
    ofDecimal s digits exponent ≠ .nan := by
  unfold ofDecimal
  dsimp only
  split_ifs
  · exact (nomatch ·)
  · exact (nomatch ·)
  · exact (nomatch ·)
  · exact ofRatio_ne_nan _ _ _
  · exact ofRatio_ne_nan _ _ _

/-- Four binary digits make up a decimal one. -/
theorem ten_pow_le {n : Nat} (hn : n ≠ 0) : 10 ^ (n.log2 / 4) ≤ n := by
  calc 10 ^ (n.log2 / 4) ≤ (2 ^ 4) ^ (n.log2 / 4) := Nat.pow_le_pow_left (by decide) _
    _ = 2 ^ (4 * (n.log2 / 4)) := (Nat.pow_mul ..).symm
    _ ≤ 2 ^ n.log2 := Nat.pow_le_pow_right (by decide) (by omega)
    _ ≤ n := Nat.log2_self_le hn

theorem lt_ten_pow (n : Nat) : n < 10 ^ (n.log2 + 1) :=
  Nat.lt_of_lt_of_le Nat.lt_log2_self (Nat.pow_le_pow_left (by decide) _)

/-- **A literal is rounded to an infinity iff its magnitude reaches the bound.** -/
theorem ofDecimal_infinite_iff {s : Bool} {digits : Nat} {exponent : Int} :
    (∃ t, ofDecimal s digits exponent = .infinite t) ↔
      (overflowBound : ℚ) ≤ digits * 10 ^ exponent := by
  have hten : (0 : ℚ) < 10 ^ exponent := zpow_pos (by norm_num) exponent
  have hbound : (0 : ℚ) < overflowBound := by exact_mod_cast overflowBound_pos
  unfold ofDecimal
  dsimp only
  split_ifs with hzero hlarge hsmall hexponent
  · refine iff_of_false (by rintro ⟨_, ⟨⟩⟩) (not_le.mpr ?_)
    calc (digits : ℚ) * 10 ^ exponent = 0 := by rw [hzero, Nat.cast_zero, zero_mul]
      _ < overflowBound := hbound
  · refine iff_of_true ⟨s, rfl⟩ ?_
    have hdigits : (10 : ℚ) ^ (digits.log2 / 4) ≤ digits := by exact_mod_cast ten_pow_le hzero
    obtain ⟨k, hk⟩ := Int.eq_ofNat_of_zero_le
      (show 0 ≤ ((digits.log2 / 4 : Nat) : Int) + exponent by omega)
    have hpower : (overflowBound : ℚ) ≤ 10 ^ k := by exact_mod_cast overflowBound_le (by omega)
    calc (overflowBound : ℚ) ≤ 10 ^ k := hpower
      _ = 10 ^ (((digits.log2 / 4 : Nat) : Int) + exponent) := by rw [hk, zpow_natCast]
      _ = 10 ^ (digits.log2 / 4) * 10 ^ exponent := by
        rw [zpow_add₀ (by norm_num), zpow_natCast]
      _ ≤ digits * 10 ^ exponent := mul_le_mul_of_nonneg_right hdigits hten.le
  · refine iff_of_false (by rintro ⟨_, ⟨⟩⟩) (not_le.mpr ?_)
    have hdigits : (digits : ℚ) < 10 ^ (digits.log2 + 1) := by exact_mod_cast lt_ten_pow digits
    calc (digits : ℚ) * 10 ^ exponent
        < 10 ^ (digits.log2 + 1) * 10 ^ exponent := mul_lt_mul_of_pos_right hdigits hten
      _ = 10 ^ (((digits.log2 + 1 : Nat) : Int) + exponent) := by
        rw [zpow_add₀ (by norm_num), zpow_natCast]
      _ ≤ 10 ^ (0 : Int) := zpow_le_zpow_right₀ (by norm_num) (by omega)
      _ = 1 := zpow_zero _
      _ ≤ overflowBound := by exact_mod_cast overflowBound_pos
  · obtain ⟨k, rfl⟩ := Int.eq_ofNat_of_zero_le hexponent
    rw [ofRatio_infinite_iff Nat.one_ne_zero, Nat.one_mul, zpow_natCast]
    exact_mod_cast Iff.rfl
  · obtain ⟨k, rfl⟩ : ∃ k : Nat, exponent = -k := ⟨(-exponent).toNat, by omega⟩
    have hunit : Nat.pow 10 k ≠ 0 := (Nat.pow_pos (by decide)).ne'
    rw [Int.neg_neg, Int.toNat_natCast, ofRatio_infinite_iff hunit, zpow_neg, zpow_natCast,
      ← div_eq_mul_inv, le_div_iff₀ (by positivity), Nat.mul_comm]
    exact_mod_cast Iff.rfl

end Double

end Attest

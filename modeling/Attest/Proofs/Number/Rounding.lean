import Attest.Proofs.Number.Comparison

/-!
# What is rounded is a number of the format

The exponent of a quotient is chosen so that its whole part fits the mantissa: in units of the first
guess it has one binary digit too many at most, and the next exponent takes that one away. Rounding
adds one at most, and if that is one too many, the mantissa is moved to the next exponent.

## Main results

* `Double.isNumber_ofRatio` — a quotient is rounded to a number of the format
-/

namespace Attest

namespace Double

variable {n d : Nat} {e : Int}

/-- The whole part of a quotient in units of `2 ^ e`. -/
def wholeUnits (n d : Nat) (e : Int) : Nat :=
  if 0 ≤ e then n / (d * Nat.pow 2 e.toNat) else n * Nat.pow 2 (-e).toNat / d

theorem wholeUnits_natCast (n d j : Nat) : wholeUnits n d j = n / (d * 2 ^ j) := by
  rw [wholeUnits, if_pos (Int.natCast_nonneg j), Int.toNat_natCast]
  rfl

theorem wholeUnits_neg (n d j : Nat) : wholeUnits n d (-j) = n * 2 ^ j / d := by
  rw [wholeUnits]
  split
  · obtain rfl : j = 0 := by omega
    simp
  · rw [Int.neg_neg, Int.toNat_natCast]
    rfl

/-- Units that are twice as large are half as many. -/
theorem wholeUnits_succ (n d : Nat) (e : Int) : wholeUnits n d (e + 1) = wholeUnits n d e / 2 := by
  rcases Int.lt_or_le e 0 with hneg | hpos
  · obtain ⟨j, rfl⟩ : ∃ j : Nat, e = -(j + 1 : Nat) := ⟨(-e - 1).toNat, by omega⟩
    rw [show -((j + 1 : Nat) : Int) + 1 = -(j : Int) by omega, wholeUnits_neg, wholeUnits_neg,
      Nat.pow_succ, Nat.div_div_eq_div_mul, ← Nat.mul_assoc, Nat.mul_div_mul_right _ _ Nat.two_pos]
  · obtain ⟨j, rfl⟩ := Int.eq_ofNat_of_zero_le hpos
    rw [show (j : Int) + 1 = (j + 1 : Nat) from rfl, wholeUnits_natCast, wholeUnits_natCast,
      Nat.div_div_eq_div_mul, Nat.pow_succ, Nat.mul_assoc]

/-- Rounding adds one at most. -/
theorem inUnits_le (n d : Nat) (e : Int) : inUnits n d e ≤ wholeUnits n d e + 1 := by
  have hround (a b : Nat) : roundDiv a b ≤ a / b + 1 := by
    simp only [roundDiv]
    split_ifs <;> omega
  rw [inUnits, wholeUnits]
  split
  · exact hround _ _
  · exact hround _ _

/-- In units of a guess that is large enough, a quotient has one binary digit too many at most. -/
theorem wholeUnits_lt (hd : d ≠ 0) (he : (n.log2 : Int) - d.log2 - 53 ≤ e) :
    wholeUnits n d e < 2 ^ 54 := by
  have hn : n < 2 ^ (n.log2 + 1) := Nat.lt_log2_self
  have hd' : 2 ^ d.log2 ≤ d := Nat.log2_self_le hd
  rcases Int.lt_or_le e 0 with hneg | hpos
  · obtain ⟨j, rfl⟩ : ∃ j : Nat, e = -j := ⟨(-e).toNat, by omega⟩
    rw [wholeUnits_neg]
    refine Nat.div_lt_of_lt_mul ?_
    calc n * 2 ^ j < 2 ^ (n.log2 + 1) * 2 ^ j := Nat.mul_lt_mul_of_pos_right hn (Nat.two_pow_pos j)
      _ = 2 ^ (n.log2 + 1 + j) := (Nat.pow_add ..).symm
      _ ≤ 2 ^ (d.log2 + 54) := Nat.pow_le_pow_right Nat.two_pos (by omega)
      _ = 2 ^ d.log2 * 2 ^ 54 := Nat.pow_add ..
      _ ≤ d * 2 ^ 54 := Nat.mul_le_mul_right _ hd'
  · obtain ⟨j, rfl⟩ := Int.eq_ofNat_of_zero_le hpos
    rw [wholeUnits_natCast]
    refine Nat.div_lt_of_lt_mul ?_
    calc n < 2 ^ (n.log2 + 1) := hn
      _ ≤ 2 ^ (d.log2 + (j + 54)) := Nat.pow_le_pow_right Nat.two_pos (by omega)
      _ = 2 ^ d.log2 * 2 ^ j * 2 ^ 54 := by rw [Nat.pow_add, Nat.pow_add, Nat.mul_assoc]
      _ ≤ d * 2 ^ j * 2 ^ 54 := Nat.mul_le_mul_right _ (Nat.mul_le_mul_right _ hd')

/-- A mantissa that was rounded up to the bound is moved to the next exponent. -/
theorem isNumber_assemble (s : Bool) {m : Nat} (hm : m ≤ mantissaBound) (he : minExponent ≤ e) :
    (assemble s m e).IsNumber := by
  have hfinite {m : Nat} {e : Int} (hm : m < mantissaBound) (he : minExponent ≤ e) :
      (if maxExponent < e then .infinite s else .finite s m e : Double).IsNumber := by
    split
    · trivial
    · next hmax => exact ⟨hm, he, Int.not_lt.mp hmax⟩
  have hhalf : mantissaBound / 2 < mantissaBound := by decide
  simp only [assemble]
  split
  · next hmax => exact hfinite (hmax ▸ hhalf) (by omega)
  · next hne => exact hfinite (Nat.lt_of_le_of_ne hm hne) he

/-- **A quotient is rounded to a number of the format.** -/
theorem isNumber_ofRatio (hd : d ≠ 0) (s : Bool) (n : Nat) : (ofRatio s n d).IsNumber := by
  unfold ofRatio
  split
  · exact ⟨by decide, Int.le_refl _, by decide⟩
  · dsimp only
    generalize hguess : max ((n.log2 : Int) - d.log2 - 53) minExponent = guess
    have hfirst : wholeUnits n d guess < 2 ^ 54 := wholeUnits_lt hd (by omega)
    change (assemble s (inUnits n d (if mantissaBound ≤ wholeUnits n d guess then guess + 1
      else guess)) _).IsNumber
    have hbound : mantissaBound = 2 ^ 53 := rfl
    split
    · have hhalf := wholeUnits_succ n d guess
      have hle := inUnits_le n d (guess + 1)
      exact isNumber_assemble s (by omega) (by omega)
    · have hle := inUnits_le n d guess
      exact isNumber_assemble s (by omega) (by omega)

end Double

end Attest

import Attest.Number.Double
import Mathlib.Algebra.Order.Field.Rat
import Mathlib.Tactic.FieldSimp
import Mathlib.Tactic.Linarith
import Mathlib.Tactic.Ring

/-!
# Comparing numbers

A finite number stands for a rational, and numbers are equal when they stand for the same place on
the extended line. The conversion of an integer stops short of an infinity: it gives nothing from
`2 ^ 1024 - 2 ^ 970` on, which is halfway between the greatest finite number and the next power of
two. Since no finite number is as great, an integer that is not converted equals none of them.

## Main definitions

* `Double.IsNumber` — numbers of the format, without the one that is not a number
* `Double.place` — where a number is on the extended line
* `Double.overflowBound` — the least magnitude of an integer that is not converted

## Main results

* `Double.eq_iff` — equal numbers are in one place
* `Double.ofRatio_infinite_iff` — the quotients that are rounded to an infinity
* `Double.ofInt?_eq_none_iff` — the integers that are not converted
* `Double.compareInt?_ne_eq` — which equal no number
-/

namespace Attest

namespace Double

/-! ### Places -/

/-- A number of the format: a mantissa and an exponent that it can hold, or an infinity. -/
def IsNumber : Double → Prop
  | .finite _ mantissa exponent =>
    mantissa < mantissaBound ∧ minExponent ≤ exponent ∧ exponent ≤ maxExponent
  | .infinite _ => True
  | .nan => False

/-- Where a number is on the extended line: its end of the line, and the rational that it stands
for if it is at neither. -/
def place (x : Double) : Int × ℚ :=
  (x.side, (x.ratio?.map fun (a, b) => (a : ℚ) / b).getD 0)

variable {x y : Double}

theorem IsNumber.ne_nan (h : x.IsNumber) : x ≠ .nan := by
  rintro rfl
  exact h

/-- A finite number is a quotient. -/
theorem ratio?_finite (s : Bool) (m : Nat) (e : Int) :
    ∃ a b, ratio? (.finite s m e) = some (a, b) ∧ 0 < b := by
  simp only [ratio?]
  split
  · exact ⟨_, _, rfl, Nat.one_pos⟩
  · exact ⟨_, _, rfl, Nat.two_pow_pos _⟩

/-- Quotients are compared without dividing. -/
theorem compare_mul_eq_iff {a c : Int} {b d : Nat} (hb : 0 < b) (hd : 0 < d) :
    compare (a * d) (c * b) = .eq ↔ (a : ℚ) / b = c / d := by
  have hb' : (b : ℚ) ≠ 0 := by exact_mod_cast hb.ne'
  have hd' : (d : ℚ) ≠ 0 := by exact_mod_cast hd.ne'
  rw [compare_eq_iff_eq, div_eq_div_iff hb' hd']
  exact_mod_cast Iff.rfl

/-- **Numbers are equal iff they are in one place.** -/
theorem eq_iff (hx : x ≠ .nan) (hy : y ≠ .nan) : x.eq y = true ↔ x.place = y.place := by
  cases x with
  | nan => exact absurd rfl hx
  | infinite s =>
    cases y with
    | nan => exact absurd rfl hy
    | infinite t => cases s <;> cases t <;> simp [eq, compare?, ratio?, place, side]
    | finite t n f => cases s <;> simp [eq, compare?, ratio?, place, side]
  | finite s m e =>
    obtain ⟨a, b, hab, hb⟩ := ratio?_finite s m e
    cases y with
    | nan => exact absurd rfl hy
    | infinite t => cases t <;> simp [eq, compare?, ratio?, place, side]
    | finite t n f =>
      obtain ⟨c, d, hcd, hd⟩ := ratio?_finite t n f
      simp only [eq, compare?, hab, hcd, place, side, Option.map_some, Option.getD_some,
        Prod.mk.injEq, true_and, beq_iff_eq, Option.some.injEq]
      exact compare_mul_eq_iff hb hd

/-! ### Integers that are not converted -/

/-- The least magnitude of an integer that is not converted. -/
def overflowBound : Nat := 2 ^ 1024 - 2 ^ 970

/-- Division by an even number reaches an even bound that it stays below by rounding up, from half
a unit before it on. -/
theorem roundDiv_eq_succ_iff {n h q : Nat} (hq : q % 2 = 1) (hn : n < 2 * h * (q + 1)) :
    roundDiv n (2 * h) = q + 1 ↔ 2 * h * q + h ≤ n := by
  have hpos : 0 < 2 * h := Nat.pos_of_mul_pos_right (Nat.zero_lt_of_lt hn)
  have hdiv := Nat.div_add_mod n (2 * h)
  have hmod : n % (2 * h) < 2 * h := Nat.mod_lt _ hpos
  have hle : n / (2 * h) ≤ q := Nat.lt_succ_iff.mp (Nat.div_lt_of_lt_mul hn)
  simp only [roundDiv]
  generalize n / (2 * h) = k at *
  generalize n % (2 * h) = r at *
  rcases Nat.lt_or_eq_of_le hle with hk | rfl
  · -- further below the bound there is no reaching it
    have hfar : 2 * h * (k + 1) ≤ 2 * h * q := Nat.mul_le_mul_left _ hk
    rw [Nat.mul_add] at hfar
    split_ifs <;> omega
  · split_ifs <;> omega

variable {n : Nat} {e : Int}

theorem log2_le_of_lt {d k : Nat} (hn : n ≠ 0) (h : n < d * 2 ^ k) : n.log2 ≤ d.log2 + k := by
  refine Nat.lt_succ_iff.mp ((Nat.pow_lt_pow_iff_right Nat.one_lt_two).mp ?_)
  calc 2 ^ n.log2 ≤ n := Nat.log2_self_le hn
    _ < d * 2 ^ k := h
    _ ≤ 2 ^ (d.log2 + 1) * 2 ^ k := Nat.mul_le_mul_right _ (Nat.lt_log2_self (n := d)).le
    _ = 2 ^ (d.log2 + k + 1) := by rw [← Nat.pow_add]; congr 1; omega

theorem le_log2_of_le {d k : Nat} (hd : d ≠ 0) (h : d * 2 ^ k ≤ n) : d.log2 + k ≤ n.log2 := by
  refine Nat.lt_succ_iff.mp ((Nat.pow_lt_pow_iff_right Nat.one_lt_two).mp ?_)
  calc 2 ^ (d.log2 + k) = 2 ^ d.log2 * 2 ^ k := Nat.pow_add ..
    _ ≤ d * 2 ^ k := Nat.mul_le_mul_right _ (Nat.log2_self_le hd)
    _ ≤ n := h
    _ < 2 ^ (n.log2 + 1) := Nat.lt_log2_self

/-- **The exponent of a quotient** is the least one at which its mantissa is below the bound, as far
as exponents are not negative. The first guess is that one or one less. -/
theorem exists_exponent {d : Nat} (hn : n ≠ 0) (hd : d ≠ 0) (s : Bool) : ∃ e,
    ofRatio s n d = assemble s (inUnits n d e) e ∧ ∀ j : Nat, e ≤ j ↔ n < d * 2 ^ (j + 53) := by
  have hfloor (j : Nat) : mantissaBound ≤ n / (d * Nat.pow 2 j) ↔ d * 2 ^ (j + 53) ≤ n := by
    have hunit : mantissaBound * (d * Nat.pow 2 j) = d * 2 ^ (j + 53) := by
      rw [Nat.pow_add, Nat.mul_comm mantissaBound, Nat.mul_assoc]
      rfl
    rw [← hunit]
    exact Nat.le_div_iff_mul_le (Nat.mul_pos (Nat.pos_of_ne_zero hd) (Nat.two_pow_pos j))
  refine ⟨_, if_neg hn, fun j => ?_⟩
  generalize hguess : max ((n.log2 : Int) - d.log2 - 53) minExponent = guess
  have hmin : minExponent = -1074 := rfl
  rcases Nat.lt_or_ge n (d * 2 ^ (j + 53)) with hlt | hge
  · have hlog := log2_le_of_lt hn hlt
    refine iff_of_true ?_ hlt
    rcases Int.lt_or_eq_of_le (show guess ≤ j by omega) with hless | rfl
    · split <;> omega
    · rw [if_pos (Int.natCast_nonneg j), Int.toNat_natCast, if_neg]
      exact mt (hfloor j).mp (Nat.not_le.mpr hlt)
  · have hlog := le_log2_of_le hd hge
    refine iff_of_false (Int.not_le.mpr ?_) (Nat.not_lt.mpr hge)
    rcases Int.lt_or_eq_of_le (show (j : Int) ≤ guess by omega) with hmore | rfl
    · split <;> omega
    · rw [if_pos (Int.natCast_nonneg j), Int.toNat_natCast, if_pos ((hfloor j).mpr hge)]
      omega

theorem assemble_infinite_iff {s : Bool} {m : Nat} :
    (∃ t, assemble s m e = .infinite t) ↔
      maxExponent < e ∨ e = maxExponent ∧ m = mantissaBound := by
  simp only [assemble]
  split
  · next hm =>
    simp only [hm, and_true]
    split <;> simp <;> omega
  · next hm =>
    simp only [hm, and_false, or_false]
    split <;> simp <;> omega

theorem two_pow_mantissa (k : Nat) : 2 ^ (k + 54) = 2 * 2 ^ k * (2 ^ 53 - 1 + 1) := by
  rw [Nat.pow_add]
  generalize 2 ^ k = w
  omega

/-- The bound in units of half the last place of the greatest finite number. -/
theorem overflowBound_eq : overflowBound = 2 * 2 ^ 970 * (2 ^ 53 - 1) + 2 ^ 970 := by
  rw [overflowBound, show 1024 = 970 + 54 from rfl, two_pow_mantissa 970]
  generalize 2 ^ 970 = w
  omega

theorem overflowBound_pos : 0 < overflowBound := by
  rw [overflowBound_eq]
  exact Nat.add_pos_right _ (Nat.two_pow_pos _)

theorem inUnits_succ (n d j : Nat) : inUnits n d (j + 1 : Nat) = roundDiv n (2 * (d * 2 ^ j)) := by
  rw [inUnits, if_pos (Int.natCast_nonneg _), Int.toNat_natCast, Nat.mul_left_comm]
  exact congrArg (fun unit => roundDiv n (d * unit)) (Nat.pow_succ' (n := j))

/-- **A quotient is rounded to an infinity iff it reaches the bound.** The exponent alone decides,
unless it is the greatest one: then the mantissa has to be rounded up. -/
theorem ofRatio_infinite_iff {d : Nat} (hd : d ≠ 0) (s : Bool) :
    (∃ t, ofRatio s n d = .infinite t) ↔ d * overflowBound ≤ n := by
  rcases Nat.eq_zero_or_pos n with rfl | hpos
  · simp [ofRatio, overflowBound_pos.ne', hd]
  obtain ⟨e, hratio, hexponent⟩ := exists_exponent hpos.ne' hd s
  have hless : e ≤ 970 ↔ n < d * 2 ^ 970 * 2 ^ 53 := by
    have hless := hexponent 970
    rwa [Nat.pow_add, ← Nat.mul_assoc] at hless
  have hmost : e ≤ 971 ↔ n < 2 * (d * 2 ^ 970) * (2 ^ 53 - 1 + 1) := by
    have hmost := hexponent 971
    rwa [show 971 + 53 = 970 + 54 from rfl, two_pow_mantissa, ← Nat.mul_assoc,
      Nat.mul_left_comm] at hmost
  have hbound : d * overflowBound = 2 * (d * 2 ^ 970) * (2 ^ 53 - 1) + d * 2 ^ 970 := by
    rw [overflowBound_eq, Nat.mul_add, ← Nat.mul_assoc, Nat.mul_left_comm]
  have hunits : inUnits n d 971 = roundDiv n (2 * (d * 2 ^ 970)) := inUnits_succ n d 970
  have hunit : 0 < d * 2 ^ 970 := Nat.mul_pos (Nat.pos_of_ne_zero hd) (Nat.two_pow_pos 970)
  rw [hratio, assemble_infinite_iff, hbound, maxExponent]
  generalize d * 2 ^ 970 = unit at *
  rcases Int.lt_trichotomy e 971 with hlt | rfl | hgt
  · omega
  · have hbelow := hmost.mp (Int.le_refl 971)
    rw [hunits, ← roundDiv_eq_succ_iff (by decide) hbelow]
    simp [mantissaBound]
  · omega

/-- The conversion fails on the integers that would be rounded to an infinity. -/
theorem ofInt?_eq_none_iff_infinite {n : Int} :
    ofInt? n = none ↔ ∃ t, ofRatio (n < 0) n.natAbs 1 = .infinite t := by
  unfold ofInt?
  split
  · next t ht => exact ⟨fun _ => ⟨t, ht⟩, fun _ => rfl⟩
  · next hfinite => exact ⟨(nomatch ·), fun ⟨t, ht⟩ => absurd ht (hfinite t)⟩

/-- **The integers that are not converted** are those that reach the bound. -/
theorem ofInt?_eq_none_iff {n : Int} : ofInt? n = none ↔ overflowBound ≤ n.natAbs := by
  rw [ofInt?_eq_none_iff_infinite, ofRatio_infinite_iff Nat.one_ne_zero, Nat.one_mul]

theorem assemble_ne_nan (s : Bool) (m : Nat) (e : Int) : assemble s m e ≠ .nan := by
  simp only [assemble]
  split <;> split <;> exact (nomatch ·)

theorem ofRatio_ne_nan (s : Bool) (n d : Nat) : ofRatio s n d ≠ .nan := by
  unfold ofRatio
  split
  · exact (nomatch ·)
  · exact assemble_ne_nan _ _ _

/-- What an integer is converted to is a number. -/
theorem ofInt?_ne_nan {n : Int} (hx : ofInt? n = some x) : x ≠ .nan := by
  have hratio := ofRatio_ne_nan (n < 0) n.natAbs 1
  unfold ofInt? at hx
  split at hx
  · cases hx
  · rwa [← Option.some.inj hx]

/-! ### Integers and numbers -/

variable {z : Int}

/-- A finite number is short of the bound. -/
theorem natAbs_lt_of_ratio? {s : Bool} {m : Nat} {a : Int} {b : Nat}
    (hx : IsNumber (.finite s m e)) (hab : ratio? (.finite s m e) = some (a, b)) :
    a.natAbs < overflowBound * b := by
  obtain ⟨hm, -, he⟩ := hx
  have hm' : m ≤ 2 ^ 53 - 1 := Nat.le_sub_one_of_lt hm
  have hsign (k : Nat) : (if s then -(k : Int) else k).natAbs = k := by cases s <;> simp
  simp only [ratio?] at hab
  split at hab
  · simp only [Option.some.injEq, Prod.mk.injEq] at hab
    obtain ⟨rfl, rfl⟩ := hab
    have hpow : 2 ^ e.toNat ≤ 2 ^ 970 * 2 := by
      rw [← Nat.pow_succ]
      exact Nat.pow_le_pow_right (by decide) (by rw [maxExponent] at he; omega)
    have hpos := Nat.two_pow_pos 970
    have hmul := Nat.mul_le_mul hm' hpow
    rw [hsign, Nat.mul_one, overflowBound_eq]
    refine Nat.lt_of_le_of_lt hmul ?_
    generalize 2 ^ 970 = w at *
    omega
  · simp only [Option.some.injEq, Prod.mk.injEq] at hab
    obtain ⟨rfl, rfl⟩ := hab
    rw [hsign]
    calc m ≤ 2 ^ 53 - 1 := hm'
      _ < overflowBound := by
        have := Nat.two_pow_pos 970
        rw [overflowBound_eq]
        generalize 2 ^ 970 = w at *
        omega
      _ ≤ overflowBound * 2 ^ (-e).toNat := Nat.le_mul_of_pos_right _ (Nat.two_pow_pos _)

/-- **An integer that is not converted equals no number.** -/
theorem compareInt?_ne_eq (hx : x ≠ .nan → x.IsNumber) (hz : overflowBound ≤ z.natAbs) :
    x.compareInt? z ≠ some .eq := by
  cases x with
  | nan => exact (nomatch ·)
  | infinite s => cases s <;> simp [compareInt?]
  | finite s m e =>
    obtain ⟨a, b, hab, hb⟩ := ratio?_finite s m e
    have hlt := natAbs_lt_of_ratio? (hx (nomatch ·)) hab
    simp only [compareInt?, hab, Option.map_some, ne_eq, Option.some.injEq, compare_eq_iff_eq]
    rintro rfl
    rw [Int.natAbs_mul, Int.natAbs_natCast] at hlt
    exact absurd hlt (Nat.not_lt.mpr (Nat.mul_le_mul_right b hz))

end Double

end Attest

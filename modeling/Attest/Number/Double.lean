/-!
# Binary64 numbers

A number of the binary64 format as an exact dyadic rational. Everything here is integer
arithmetic: a finite number is `± mantissa * 2 ^ exponent`, and the operations compute the exact
result first and round once, to the nearest representable number, ties to the even mantissa.

## Main definitions

* `Double` — finite numbers, the infinities and the one not-a-number
* `Double.ofRatio` — the representable number nearest to a quotient of naturals
* `Double.ofInt?`, `Double.ofDecimal` — rounding an integer and a decimal literal
* `Double.eq`, `Double.lt` — the numerical comparisons, in which a not-a-number takes no part
* `Double.compareInt?` — the exact comparison with an integer of any size
-/

namespace Attest

/-- A number of the binary64 format. A finite one stands for `± mantissa * 2 ^ exponent`. -/
inductive Double where
  | finite (negative : Bool) (mantissa : Nat) (exponent : Int)
  | infinite (negative : Bool)
  | nan
  deriving DecidableEq, Repr, Inhabited

namespace Double

/-- The least exponent of a mantissa. -/
def minExponent : Int := -1074

/-- The greatest exponent of a mantissa. -/
def maxExponent : Int := 971

/-- Mantissas are below this bound. -/
def mantissaBound : Nat := Nat.pow 2 53

def zero : Double := .finite false 0 minExponent

/-! ### Rounding -/

/-- The quotient rounded to the nearest natural, a half to the even neighbour. -/
def roundDiv (num den : Nat) : Nat :=
  let quotient := num / den
  let twice := 2 * (num % den)
  if twice < den then quotient
  else if den < twice then quotient + 1
  else if quotient % 2 = 0 then quotient else quotient + 1

/-- `num / den` in units of `2 ^ exponent`, rounded to nearest. -/
def inUnits (num den : Nat) (exponent : Int) : Nat :=
  if 0 ≤ exponent then roundDiv num (den * Nat.pow 2 exponent.toNat)
  else roundDiv (num * Nat.pow 2 (-exponent).toNat) den

/-- The number with this rounded mantissa; a mantissa that was rounded up to the bound moves to
the next exponent, and an exponent above the greatest one is an infinity. -/
def assemble (negative : Bool) (mantissa : Nat) (exponent : Int) : Double :=
  let (mantissa, exponent) :=
    if mantissa = mantissaBound then (mantissa / 2, exponent + 1) else (mantissa, exponent)
  if maxExponent < exponent then .infinite negative else .finite negative mantissa exponent

/-- The number nearest to `± num / den`. The first guess at the exponent may be one too small;
the mantissa then does not fit and the next exponent is taken. -/
def ofRatio (negative : Bool) (num den : Nat) : Double :=
  if num = 0 then .finite negative 0 minExponent
  else
    let guess := max ((num.log2 : Int) - den.log2 - 53) minExponent
    let floor := if 0 ≤ guess then num / (den * Nat.pow 2 guess.toNat)
      else num * Nat.pow 2 (-guess).toNat / den
    let exponent := if mantissaBound ≤ floor then guess + 1 else guess
    assemble negative (inUnits num den exponent) exponent

/-- The number nearest to an integer; `none` when it is beyond the finite range. -/
def ofInt? (n : Int) : Option Double :=
  match ofRatio (n < 0) n.natAbs 1 with
  | .infinite _ => none
  | x => some x

/-- The number nearest to `± digits * 10 ^ exponent`. Exponents that are far out of range are
settled without computing the power. -/
def ofDecimal (negative : Bool) (digits : Nat) (exponent : Int) : Double :=
  let magnitude : Int := (digits.log2 : Int) / 4 + exponent
  if digits = 0 then .finite negative 0 minExponent
  else if 400 < magnitude then .infinite negative
  else if (digits.log2 : Int) + exponent < -400 then .finite negative 0 minExponent
  else if 0 ≤ exponent then ofRatio negative (digits * Nat.pow 10 exponent.toNat) 1
  else ofRatio negative digits (Nat.pow 10 (-exponent).toNat)

/-! ### Exact values -/

/-- A finite number as `(numerator, denominator)` with a positive denominator. -/
def ratio? : Double → Option (Int × Nat)
  | .finite negative mantissa exponent =>
    let sign (n : Nat) : Int := if negative then -(n : Int) else n
    if 0 ≤ exponent then some (sign (mantissa * Nat.pow 2 exponent.toNat), 1)
    else some (sign mantissa, Nat.pow 2 (-exponent).toNat)
  | _ => none

/-- The position of a number on the extended line: `-1` and `1` are the infinite ends. -/
def side : Double → Int
  | .infinite true => -1
  | .infinite false => 1
  | _ => 0

/-! ### Comparison -/

/-- The order of two numbers; `none` if one of them is not a number. -/
def compare? (x y : Double) : Option Ordering :=
  match x, y with
  | .nan, _ => none
  | _, .nan => none
  | x, y =>
    match x.ratio?, y.ratio? with
    | some (a, b), some (c, d) => some (compare (a * d) (c * b))
    | _, _ => some (compare x.side y.side)

/-- Numerical equality: the two zeros are equal, a not-a-number equals nothing. -/
def eq (x y : Double) : Bool := x.compare? y == some .eq

def lt (x y : Double) : Bool := x.compare? y == some .lt

/-- The exact order of a number and an integer of any size. -/
def compareInt? (x : Double) (n : Int) : Option Ordering :=
  match x with
  | .nan => none
  | .infinite negative => some (if negative then .lt else .gt)
  | x => x.ratio?.map fun (a, b) => compare a (n * b)

/-- The number is zero, of either sign. -/
def isZero : Double → Bool
  | .finite _ mantissa _ => mantissa == 0
  | _ => false

/-! ### Arithmetic

Only what durations and base-60 literals need. -/

def negate : Double → Double
  | .finite negative mantissa exponent => .finite (!negative) mantissa exponent
  | .infinite negative => .infinite (!negative)
  | .nan => .nan

private def ofSigned (numerator : Int) (denominator : Nat) : Double :=
  ofRatio (numerator < 0) numerator.natAbs denominator

/-- The rounded sum. -/
def add (x y : Double) : Double :=
  match x, y with
  | .nan, _ | _, .nan => .nan
  | .infinite a, .infinite b => if a = b then .infinite a else .nan
  | .infinite a, _ => .infinite a
  | _, .infinite b => .infinite b
  | .finite true 0 e, .finite true 0 _ => .finite true 0 e
  | x, y =>
    match x.ratio?, y.ratio? with
    | some (a, b), some (c, d) => ofSigned (a * d + c * b) (b * d)
    | _, _ => .nan

/-- The rounded product. -/
def mul (x y : Double) : Double :=
  match x, y with
  | .nan, _ | _, .nan => .nan
  | .infinite a, .infinite b => .infinite (a != b)
  | .infinite a, .finite b m _ | .finite b m _, .infinite a =>
    if m = 0 then .nan else .infinite (a != b)
  | .finite a m e, .finite b n f =>
    let sum := e + f
    if 0 ≤ sum then ofRatio (a != b) (m * n * Nat.pow 2 sum.toNat) 1
    else ofRatio (a != b) (m * n) (Nat.pow 2 (-sum).toNat)

/-- The integer nearest to a finite number, a half to the even neighbour. -/
def roundToInt? (x : Double) : Option Int :=
  x.ratio?.map fun (a, b) =>
    let n := roundDiv a.natAbs b
    if a < 0 then -(n : Int) else n

end Double

end Attest

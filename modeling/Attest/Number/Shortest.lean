import Attest.Number.Double

/-!
# The shortest decimal of a binary64 number

The digits of a number are the fewest that read back as it. A decimal reads back as the number
iff it lies in the interval of reals that round to it; the interval includes its ends iff the
mantissa is even. For each digit count the two neighbours of the exact value on that decimal grid
are tried, the nearer one first, and the first count with a hit wins.

## Main definitions

* `Double.shortest` — the digits and the position of the point
* `Double.NumberFormat`, `Double.render` — from digits to text: which exponents are written out,
  and the words for the infinities and the not-a-number
-/

namespace Attest

namespace Double

/-! ### Digits -/

/-- A positive decimal: `digits`, read as an integer, times `10 ^ exponent`. -/
structure Decimal where
  digits : Nat
  exponent : Int
  deriving DecidableEq, Repr, Inhabited

/-- `num * 10 ^ e ≤ ...` comparisons are made after both sides are made integers. -/
private def scaled (n : Nat) (binary decimal : Int) : Nat × Nat :=
  let up := n * (if 0 ≤ binary then Nat.pow 2 binary.toNat else 1)
    * (if 0 ≤ decimal then Nat.pow 10 decimal.toNat else 1)
  let down := (if 0 ≤ binary then 1 else Nat.pow 2 (-binary).toNat)
    * (if 0 ≤ decimal then 1 else Nat.pow 10 (-decimal).toNat)
  (up, down)

private def ratioLe (x y : Nat × Nat) : Bool := x.1 * y.2 ≤ y.1 * x.2

private def ratioLt (x y : Nat × Nat) : Bool := x.1 * y.2 < y.1 * x.2

/-- The largest `p` with `10 ^ p ≤ num / den`, for a positive quotient. -/
def decimalExponent (num den : Nat) : Int :=
  let guess : Int := ((num.log2 : Int) - den.log2 - 1) * 30103 / 100000 - 1
  let fits (p : Int) : Bool := ratioLe (scaled 1 0 p) (num, den)
  let rec climb : Nat → Int → Int
    | 0, p => p
    | n + 1, p => if fits (p + 1) then climb n (p + 1) else p
  climb 4 guess

/-- The interval of reals that round to `mantissa * 2 ^ exponent`, as quotients. -/
structure RoundingInterval where
  low : Nat × Nat
  high : Nat × Nat
  closed : Bool

def roundingInterval (mantissa : Nat) (exponent : Int) : RoundingInterval :=
  let narrowBelow := mantissa = mantissaBound / 2 ∧ minExponent < exponent
  { low := if narrowBelow then scaled (4 * mantissa - 1) (exponent - 2) 0
      else scaled (2 * mantissa - 1) (exponent - 1) 0
    high := scaled (2 * mantissa + 1) (exponent - 1) 0
    closed := mantissa % 2 = 0 }

def RoundingInterval.contains (i : RoundingInterval) (x : Nat × Nat) : Bool :=
  if i.closed then ratioLe i.low x && ratioLe x i.high
  else ratioLt i.low x && ratioLt x i.high

/-- Drops the zeros at the end of the digits, so that the last digit counts. -/
def Decimal.trim : Nat → Decimal → Decimal
  | 0, d => d
  | n + 1, d =>
    if d.digits ≠ 0 ∧ d.digits % 10 = 0 then
      Decimal.trim n { digits := d.digits / 10, exponent := d.exponent + 1 }
    else d

/-- The hit on the grid of `count` digits, if there is one. -/
def onGrid? (num den : Nat) (interval : RoundingInterval) (top : Int) (count : Nat) :
    Option Decimal :=
  let unit : Int := top + 1 - count
  let (n, d) := scaled num 0 (-unit)
  let d := d * den
  let floor := n / d
  let twice := 2 * (n % d)
  let below : Decimal := { digits := floor, exponent := unit }
  let above : Decimal := { digits := floor + 1, exponent := unit }
  let hit (x : Decimal) : Bool := 0 < x.digits && interval.contains (scaled x.digits 0 x.exponent)
  let upFirst := d < twice || (twice = d && floor % 2 = 1)
  let first := if upFirst then above else below
  let second := if upFirst then below else above
  if hit first then some first else if hit second then some second else none

/-- The fewest digits that read back as the positive number `mantissa * 2 ^ exponent`. -/
def shortest (mantissa : Nat) (exponent : Int) : Decimal :=
  let (num, den) := scaled mantissa exponent 0
  let top := decimalExponent num den
  let interval := roundingInterval mantissa exponent
  let found := (List.range 17).findSome? fun k => onGrid? num den interval top (k + 1)
  Decimal.trim 20 (found.getD { digits := mantissa, exponent := 0 })

/-! ### Text -/

/-- How a number is spelled: the exponents of the first digit that are written positionally, and
the words for the numbers that have no digits. -/
structure NumberFormat where
  leastPositional : Int
  firstExponential : Int
  infinity : String
  nan : String

/-- The spelling of JSON output: positional from `0.0001` up to below `10 ^ 16`. -/
def NumberFormat.json : NumberFormat :=
  { leastPositional := -4, firstExponential := 16, infinity := "Infinity", nan := "NaN" }

/-- The spelling in diagnostics; it differs only in the words. -/
def NumberFormat.display : NumberFormat :=
  { NumberFormat.json with infinity := "inf", nan := "nan" }

def zeros (n : Nat) : String := String.ofList (List.replicate n '0')

/-- A decimal whose first digit has the weight `10 ^ top`, written without an exponent. -/
def positional (digits : String) (top : Int) : String :=
  let count := digits.length
  if top < 0 then "0." ++ zeros (-top - 1).toNat ++ digits
  else
    let whole := top.toNat + 1
    if count ≤ whole then digits ++ zeros (whole - count) ++ ".0"
    else
      String.ofList (digits.toList.take whole) ++ "." ++ String.ofList (digits.toList.drop whole)

/-- The same decimal, written with an exponent. -/
def exponential (digits : String) (top : Int) : String :=
  let fraction := String.ofList (digits.toList.drop 1)
  let head := String.ofList (digits.toList.take 1)
  let power := toString top.natAbs
  head ++ (if fraction.isEmpty then "" else "." ++ fraction)
    ++ "e" ++ (if top < 0 then "-" else "+") ++ (if power.length < 2 then "0" ++ power else power)

/-- The text of a number: its shortest digits, positional in the range that the format names. -/
def render (format : NumberFormat) : Double → String
  | .nan => format.nan
  | .infinite negative => (if negative then "-" else "") ++ format.infinity
  | .finite negative mantissa exponent =>
    let sign := if negative then "-" else ""
    if mantissa = 0 then sign ++ "0.0"
    else
      let decimal := shortest mantissa exponent
      let digits := toString decimal.digits
      let top := decimal.exponent + digits.length - 1
      sign ++
        if format.leastPositional ≤ top ∧ top < format.firstExponential then positional digits top
        else exponential digits top

end Double

end Attest

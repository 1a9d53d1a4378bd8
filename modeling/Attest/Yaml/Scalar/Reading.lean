import Attest.Fault
import Attest.Number.Double
import Attest.Text.CharClass
import Attest.Text.LetterCase
import Attest.Yaml.Tag.Implicit

/-!
# Scalars as values

The value of a text under the tag that it has. A tag can be given to any text, so every reading
here can fail.

## Main definitions

* `boolOf`, `intOf`, `floatOf` — truth values and numbers
* `momentOf` — dates and moments
* `bytesOf` — bytes in base 64
-/

namespace Attest.Yaml

/-- Without blanks at both ends. -/
def trimBlanks (cs : List Char) : List Char :=
  let isSpace := fun c => Boundaries.blank.contains c
  ((cs.dropWhile isSpace).reverse.dropWhile isSpace).reverse

/-- A sign and what is behind it. -/
def splitSign : List Char → Bool × List Char
  | '-' :: rest => (true, rest)
  | '+' :: rest => (false, rest)
  | cs => (false, cs)

def boolOf (text : String) : Except Fault Bool :=
  let word := String.ofList (text.toList.map lowerCase)
  if ["yes", "true", "on"].contains word then .ok true
  else if ["no", "false", "off"].contains word then .ok false
  else .error (.absentKey word)

/-! ### Integers -/

def notANumber {α : Type} : Except Fault α := .error (.outOfRange "invalid literal")

/-- The value of a digit in a base. Decimal digits of all scripts count. -/
def digitIn? (base : Nat) (c : Char) : Option Nat :=
  let value := if Boundaries.decimalDigit.contains c then some (Boundaries.digitValue c)
    else if 'a' ≤ c && c ≤ 'z' then some (c.toNat - 'a'.toNat + 10)
    else if 'A' ≤ c && c ≤ 'Z' then some (c.toNat - 'A'.toNat + 10)
    else none
  value.filter (· < base)

/-- Without the beginning that names the base. -/
def withoutBase (base : Nat) : List Char → List Char
  | '0' :: c :: rest =>
    let named := match base with
      | 2 => c == 'b' || c == 'B'
      | 8 => c == 'o' || c == 'O'
      | 16 => c == 'x' || c == 'X'
      | _ => false
    if named then rest else '0' :: c :: rest
  | cs => cs

/-- The greatest number of decimal digits that are converted. -/
def decimalLimit : Nat := 4300

/-- An integer in a base, with blanks around it, a sign and the beginning of its base. -/
def readInteger (base : Nat) (cs : List Char) : Except Fault Int :=
  let (negative, body) := splitSign (trimBlanks cs)
  let body := withoutBase base body
  match body.mapM (digitIn? base) with
  | none => notANumber
  | some ds =>
    if ds.isEmpty then notANumber
    else if base = 10 && decimalLimit < ds.length then .error (.tooManyDigits (some ds.length))
    else
      let n : Int := (ds.foldl (fun n d => base * n + d) 0 : Nat)
      .ok (if negative then -n else n)

/-- A number whose parts count sixty times as much as those behind them. -/
def sexagesimal (parts : List Int) : Int := parts.foldl (fun n d => 60 * n + d) 0

/-- An integer in one of the forms of the notation; low lines have no meaning. -/
def intOf (text : String) : Except Fault Int := do
  let (negative, body) := splitSign (text.toList.filter (· ≠ '_'))
  let n ← match body with
    | [] => throw .emptyNumber
    | ['0'] => pure 0
    | '0' :: 'b' :: ds => readInteger 2 ds
    | '0' :: 'x' :: ds => readInteger 16 ds
    | '0' :: _ => readInteger 8 body
    | _ =>
      if body.contains ':' then do
        let parts ← (splitColons body).mapM (readInteger 10)
        pure (sexagesimal parts)
      else readInteger 10 body
  return if negative then -n else n

/-! ### Fractions -/

/-- The exponent at the end of a decimal number. -/
def exponentOf? : List Char → Option Int
  | [] => some 0
  | e :: rest => do
    guard (e == 'e' || e == 'E')
    let (negative, body) := splitSign rest
    let ds ← body.mapM (digitIn? 10)
    guard !ds.isEmpty
    let n : Int := (ds.foldl (fun n d => 10 * n + d) 0 : Nat)
    return if negative then -n else n

/-- A decimal number without a sign. -/
def decimalOf? (negative : Bool) (cs : List Char) : Option Double := do
  let isDigit := fun c => Boundaries.decimalDigit.contains c
  let whole := cs.takeWhile isDigit
  let rest := cs.drop whole.length
  let tail := (behind? '.' rest).getD []
  let fraction := tail.takeWhile isDigit
  let exponent ← exponentOf?
    (if (behind? '.' rest).isSome then tail.drop fraction.length else rest)
  let ds := whole ++ fraction
  guard !ds.isEmpty
  let digits := ds.foldl (fun n c => 10 * n + Boundaries.digitValue c) 0
  return .ofDecimal negative digits (exponent - fraction.length)

/-- A number with a point or exponent, or a word for one that is infinite or none. -/
def readDouble (cs : List Char) : Except Fault Double :=
  let (negative, body) := splitSign (trimBlanks cs)
  match String.ofList body with
  | "inf" | "infinity" => .ok (.infinite negative)
  | "nan" => .ok .nan
  | _ =>
    match decimalOf? negative body with
    | some x => .ok x
    | none => notANumber

/-- The sum of the parts, the last of which is given first, with their weights. -/
def weighted : Nat → Double → List Double → Double
  | _, sum, [] => sum
  | weight, sum, x :: rest =>
    weighted (60 * weight) (sum.add (x.mul (.ofDecimal false weight 0))) rest

/-- A fraction in one of the forms of the notation; low lines and capitals have no meaning. -/
def floatOf (text : String) : Except Fault Double := do
  let (negative, body) := splitSign ((text.toList.filter (· ≠ '_')).map lowerCase)
  if body.isEmpty && text.toList.all (· == '_') then throw .emptyNumber
  let x ← if String.ofList body == ".inf" then pure (.infinite false)
    else if String.ofList body == ".nan" then pure .nan
    else if body.contains ':' then do
      let parts ← (splitColons body).mapM readDouble
      pure (weighted 1 .zero parts.reverse)
    else readDouble body
  return if negative then x.negate else x

/-! ### Moments -/

/-- The first six digits of a fraction of a second. -/
def microsecondsOf (fraction : List Char) : Nat :=
  Json.decimalNumber ((fraction ++ List.replicate 6 '0').take 6)

def offsetOf : Zone → Int
  | .universal => 0
  | .offset negative hours minutes =>
    let seconds : Int := hours * 3600 + minutes * 60
    if negative then -seconds else seconds

/-- A date or a moment; the calendar must have it. -/
def momentOf (text : String) : Except Fault Value :=
  match splitTimestamp? text.toList with
  | none => .error (.noSuchPart "no moment")
  | some m =>
    let date : CalendarDate := { year := m.year, month := m.month, day := m.day }
    match m.clock with
    | none =>
      if date.isValid then .ok (.date date) else .error (.outOfRange "no such date")
    | some c =>
      let t : Timestamp := {
        date, hour := c.hour, minute := c.minute, second := c.second
        microsecond := microsecondsOf c.fraction, offset := c.zone.map offsetOf }
      if t.isValid then .ok (.timestamp t) else .error (.outOfRange "no such moment")

/-! ### Bytes -/

/-- The six bits of a character. -/
def sixBits? (c : Char) : Option Nat :=
  if 'A' ≤ c && c ≤ 'Z' then some (c.toNat - 'A'.toNat)
  else if 'a' ≤ c && c ≤ 'z' then some (c.toNat - 'a'.toNat + 26)
  else if '0' ≤ c && c ≤ '9' then some (c.toNat - '0'.toNat + 52)
  else if c == '+' then some 62
  else if c == '/' then some 63
  else none

/-- Bytes in groups of four characters. The state is the place in the group, the bits left over and
the padding so far; a complete padding ends the text, and other characters have no meaning. -/
def readGroups (place left padding : Nat) : List Char → Except Fault (List UInt8)
  | [] => if place = 0 then .ok [] else .error .notYaml
  | c :: rest =>
    if c == '=' then
      if place < 2 then readGroups place left padding rest
      else if 4 ≤ place + padding + 1 then .ok []
      else readGroups place left (padding + 1) rest
    else match sixBits? c with
      | none => readGroups place left padding rest
      | some bits => do
        match place with
        | 0 => readGroups 1 bits 0 rest
        | 1 => return UInt8.ofNat (left * 4 + bits / 16) :: (← readGroups 2 (bits % 16) 0 rest)
        | 2 => return UInt8.ofNat (left * 16 + bits / 4) :: (← readGroups 3 (bits % 4) 0 rest)
        | _ => return UInt8.ofNat (left * 64 + bits) :: (← readGroups 0 0 0 rest)

def bytesOf (text : String) : Except Fault (List UInt8) :=
  if text.toList.all fun c => c.toNat < 128 then readGroups 0 0 0 text.toList
  else .error .notYaml

end Attest.Yaml

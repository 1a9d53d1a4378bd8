import Attest.Json.Reader
import Attest.Yaml.Cursor
import Attest.Yaml.Tag

/-!
# Implicit tags

A plain scalar without a tag has the tag that its text looks like.

## Main definitions

* `Tag.ofText` — the tag of a text
* `looksLikeInt`, `looksLikeFloat`, `looksLikeTimestamp` — the forms of numbers and moments
* `splitTimestamp?` — the parts of a moment
-/

namespace Attest.Yaml

/-- Whether a text is not empty and all its characters have a property. -/
def allAndSome (p : Char → Bool) (cs : List Char) : Bool := !cs.isEmpty && cs.all p

def isDigitOrLow (c : Char) : Bool := isDigit c || c == '_'

def withoutSign : List Char → List Char
  | '-' :: rest => rest
  | '+' :: rest => rest
  | cs => cs

/-- The pieces of a text between colons. -/
def splitColons : List Char → List (List Char)
  | [] => [[]]
  | ':' :: rest => [] :: splitColons rest
  | c :: rest =>
    match splitColons rest with
    | piece :: pieces => (c :: piece) :: pieces
    | [] => [[c]]

/-- A number below sixty in one or two digits. -/
def isSixtieth : List Char → Bool
  | [d] => isDigit d
  | [t, d] => '0' ≤ t && t ≤ '5' && isDigit d
  | _ => false

/-- Digits, which may be grouped by low lines behind the first. -/
def isGrouped : List Char → Bool
  | d :: rest => isDigit d && rest.all isDigitOrLow
  | [] => false

/-! ### Integers -/

def isHexOrLow (c : Char) : Bool := (Json.hexValue? c).isSome || c == '_'

/-- Binary, octal, hexadecimal, decimal and sexagesimal integers. -/
def looksLikeInt (cs : List Char) : Bool :=
  match withoutSign cs with
  | '0' :: 'b' :: ds => allAndSome (fun d => d == '0' || d == '1' || d == '_') ds
  | '0' :: 'x' :: ds => allAndSome isHexOrLow ds
  | '0' :: ds => ds.all fun d => ('0' ≤ d && d ≤ '7') || d == '_'
  | ds =>
    match splitColons ds with
    | whole :: parts => isGrouped whole && parts.all isSixtieth
    | [] => false

/-! ### Fractions -/

/-- Nothing, or an exponent with its sign. -/
def isExponent : List Char → Bool
  | [] => true
  | e :: sign :: ds => (e == 'e' || e == 'E') && (sign == '-' || sign == '+')
      && allAndSome isDigit ds
  | _ => false

/-- Numbers with a point, the infinite ones, and what is not a number. -/
def looksLikeFloat (cs : List Char) : Bool :=
  let body := withoutSign cs
  let signed := body.length < cs.length
  let whole := body.takeWhile (· ≠ '.')
  match body.drop whole.length with
  | [] => false
  | _ :: tail =>
    let fraction := tail.takeWhile isDigitOrLow
    let exponent := tail.drop fraction.length
    if whole.isEmpty then
      ["inf", "Inf", "INF"].contains (String.ofList tail)
        || (!signed && ["nan", "NaN", "NAN"].contains (String.ofList tail))
        || (!signed && isGrouped fraction && isExponent exponent)
    else match splitColons whole with
      | [whole] => isGrouped whole && isExponent exponent
      | whole :: parts => isGrouped whole && parts.all isSixtieth && exponent.isEmpty
      | [] => false

/-! ### Moments -/

/-- The zone of a moment. -/
inductive Zone where
  | universal
  | offset (negative : Bool) (hours minutes : Nat)
  deriving DecidableEq, Repr, Inhabited

/-- A time of day as it is written. -/
structure ClockText where
  hour : Nat
  minute : Nat
  second : Nat
  fraction : List Char
  zone : Option Zone
  deriving DecidableEq, Repr, Inhabited

/-- A date as it is written, with or without a time of day. -/
structure MomentText where
  year : Nat
  month : Nat
  day : Nat
  /-- Whether month and day have two digits. -/
  isFull : Bool
  clock : Option ClockText
  deriving DecidableEq, Repr, Inhabited

/-- A number of at least `least` and at most `greatest` digits, and the rest. -/
def digits? (least greatest : Nat) (cs : List Char) : Option (Nat × Nat × List Char) :=
  let ds := (cs.take greatest).takeWhile isDigit
  if ds.length < least then none
  else some (Json.decimalNumber ds, ds.length, cs.drop ds.length)

/-- The rest behind a character. -/
def behind? (c : Char) : List Char → Option (List Char)
  | x :: rest => if x == c then some rest else none
  | [] => none

/-- The zone that a text is, behind blanks. -/
def zone? (cs : List Char) : Option (Option Zone) :=
  match cs.dropWhile isBlank with
  | [] => if cs.isEmpty then some none else none
  | ['Z'] => some (some .universal)
  | sign :: rest => do
    guard (sign == '-' || sign == '+')
    let (hours, _, rest) ← digits? 1 2 rest
    if rest.isEmpty then return some (.offset (sign == '-') hours 0)
    let (minutes, _, rest) ← digits? 2 2 (← behind? ':' rest)
    guard rest.isEmpty
    return some (.offset (sign == '-') hours minutes)

def clock? (cs : List Char) : Option ClockText := do
  let (hour, _, rest) ← digits? 1 2 cs
  let (minute, _, rest) ← digits? 2 2 (← behind? ':' rest)
  let (second, _, rest) ← digits? 2 2 (← behind? ':' rest)
  let tail := (behind? '.' rest).getD []
  let fraction := tail.takeWhile isDigit
  let zone ← zone? (if (behind? '.' rest).isSome then tail.drop fraction.length else rest)
  return { hour, minute, second, fraction, zone }

/-- The parts of a moment. -/
def splitTimestamp? (cs : List Char) : Option MomentText := do
  let (year, _, rest) ← digits? 4 4 cs
  let (month, monthWidth, rest) ← digits? 1 2 (← behind? '-' rest)
  let (day, dayWidth, rest) ← digits? 1 2 (← behind? '-' rest)
  let isFull := monthWidth = 2 && dayWidth = 2
  match rest with
  | [] => return { year, month, day, isFull, clock := none }
  | sep :: after =>
    guard (sep == 'T' || sep == 't' || isBlank sep)
    let clock ← clock? (if isBlank sep then after.dropWhile isBlank else after)
    return { year, month, day, isFull, clock := some clock }

/-- A date in full, or a date with a time of day. -/
def looksLikeTimestamp (cs : List Char) : Bool :=
  match splitTimestamp? cs with
  | some m => m.isFull || m.clock.isSome
  | none => false

/-! ### The tag of a text -/

def boolWords : List String :=
  ["yes", "Yes", "YES", "no", "No", "NO", "true", "True", "TRUE", "false", "False", "FALSE",
    "on", "On", "ON", "off", "Off", "OFF"]

def nullWords : List String := ["", "~", "null", "Null", "NULL"]

/-- The tag of a plain scalar. -/
def Tag.ofText (text : String) : Tag :=
  let cs := text.toList
  if boolWords.contains text then .bool
  else if looksLikeFloat cs then .float
  else if looksLikeInt cs then .int
  else if text == "<<" then .merge
  else if nullWords.contains text then .null
  else if looksLikeTimestamp cs then .timestamp
  else if text == "=" then .value
  else if ["!", "&", "*"].contains text then .unknown
  else .str

end Attest.Yaml

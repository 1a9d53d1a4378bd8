/-!
# Dates and moments

Calendar dates and times of day with an optional offset from universal time, as they occur in
documents, and the instants of a run's clock.

## Main definitions

* `CalendarDate`, `Timestamp` — what a document can hold
* `Instant` — microseconds since the first of January 1970, the time of a run
* `Instant.timestamp` — the civil reading of an instant
-/

namespace Attest

/-! ### Civil dates -/

/-- A day of the proleptic Gregorian calendar. -/
structure CalendarDate where
  year : Nat
  month : Nat
  day : Nat
  deriving DecidableEq, Repr, Inhabited

namespace CalendarDate

def isLeap (year : Nat) : Bool := year % 4 = 0 && (year % 100 ≠ 0 || year % 400 = 0)

def daysInMonth (year month : Nat) : Nat :=
  match month with
  | 2 => if isLeap year then 29 else 28
  | 4 | 6 | 9 | 11 => 30
  | _ => 31

/-- Years run from 1 to 9999. -/
def isValid (d : CalendarDate) : Bool :=
  1 ≤ d.year && d.year ≤ 9999 && 1 ≤ d.month && d.month ≤ 12 && 1 ≤ d.day
    && d.day ≤ daysInMonth d.year d.month

/-- Days from the first of January 1970. -/
def toDays (d : CalendarDate) : Int :=
  let y : Int := if d.month ≤ 2 then (d.year : Int) - 1 else d.year
  let era := y.fdiv 400
  let yearOfEra := y - era * 400
  let shifted : Int := ((d.month : Int) + 9) % 12
  let dayOfYear := (153 * shifted + 2) / 5 + d.day - 1
  let dayOfEra := yearOfEra * 365 + yearOfEra / 4 - yearOfEra / 100 + dayOfYear
  era * 146097 + dayOfEra - 719468

/-- The day that lies `days` after the first of January 1970. -/
def ofDays (days : Int) : CalendarDate :=
  let z := days + 719468
  let era := z.fdiv 146097
  let dayOfEra := z - era * 146097
  let yearOfEra := (dayOfEra - dayOfEra / 1460 + dayOfEra / 36524 - dayOfEra / 146096) / 365
  let dayOfYear := dayOfEra - (365 * yearOfEra + yearOfEra / 4 - yearOfEra / 100)
  let shifted := (5 * dayOfYear + 2) / 153
  let day := dayOfYear - (153 * shifted + 2) / 5 + 1
  let month := if shifted < 10 then shifted + 3 else shifted - 9
  let year := yearOfEra + era * 400 + (if month ≤ 2 then 1 else 0)
  { year := year.toNat, month := month.toNat, day := day.toNat }

end CalendarDate

/-- `n` in decimal, with zeros in front up to `width` digits. -/
def padded (width n : Nat) : String :=
  let digits := toString n
  String.ofList (List.replicate (width - digits.length) '0') ++ digits

/-- The text `2024-01-05`. -/
def CalendarDate.text (d : CalendarDate) : String :=
  padded 4 d.year ++ "-" ++ padded 2 d.month ++ "-" ++ padded 2 d.day

/-! ### Moments -/

/-- A date with a time of day; `offset` is the distance from universal time in seconds, if it is
known. -/
structure Timestamp where
  date : CalendarDate
  hour : Nat
  minute : Nat
  second : Nat
  microsecond : Nat
  offset : Option Int
  deriving DecidableEq, Repr, Inhabited

namespace Timestamp

def isValid (t : Timestamp) : Bool :=
  t.date.isValid && t.hour < 24 && t.minute < 60 && t.second < 60
    && match t.offset with
      | some s => s.natAbs < 86400
      | none => true

/-- Microseconds since the start of 1970, in universal time if the offset is known. -/
def micros (t : Timestamp) : Int :=
  let seconds := t.date.toDays * 86400 + t.hour * 3600 + t.minute * 60 + t.second
    - t.offset.getD 0
  seconds * 1000000 + t.microsecond

private def offsetText (seconds : Int) : String :=
  let n := seconds.natAbs
  let tail := if n % 60 = 0 then "" else ":" ++ padded 2 (n % 60)
  (if seconds < 0 then "-" else "+") ++ padded 2 (n / 3600) ++ ":" ++ padded 2 (n / 60 % 60) ++ tail

/-- The text `2024-01-05 10:20:30.000500+01:00`, with `separator` between date and time. -/
def text (t : Timestamp) (separator : String) : String :=
  t.date.text ++ separator ++ padded 2 t.hour ++ ":" ++ padded 2 t.minute ++ ":"
    ++ padded 2 t.second
    ++ (if t.microsecond = 0 then "" else "." ++ padded 6 t.microsecond)
    ++ (t.offset.map offsetText).getD ""

end Timestamp

/-! ### Instants -/

/-- Microseconds since the first of January 1970 in universal time. -/
structure Instant where
  micros : Int
  deriving DecidableEq, Repr, Inhabited

namespace Instant

def advance (i : Instant) (micros : Int) : Instant := { micros := i.micros + micros }

def timestamp (i : Instant) : Timestamp :=
  let days := i.micros.fdiv 86400000000
  let rest := (i.micros - days * 86400000000).toNat
  let seconds := rest / 1000000
  { date := .ofDays days, hour := seconds / 3600, minute := seconds / 60 % 60,
    second := seconds % 60, microsecond := rest % 1000000, offset := some 0 }

/-- The text `2024-01-05T10:20:30+00:00`. -/
def text (i : Instant) : String := i.timestamp.text "T"

end Instant

end Attest

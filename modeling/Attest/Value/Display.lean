import Attest.Number.Shortest
import Attest.Value.Kind

/-!
# Values in diagnostics

The text of any value, JSON or not, as diagnostics show it: quoted strings, brackets, the names
`None`, `True` and `False`. An integer of more than 4300 digits has no text.

## Main definitions

* `digitLimit`, `intText` — integers in decimal, within the limit
* `Value.display` — the text of a value
* `Value.label` — the same, but a string stands for itself and a date for its plain text
-/

namespace Attest

/-- Integers with more digits than this are not converted to or from text. -/
def digitLimit : Nat := 4300

/-- The least natural with too many digits. -/
def digitBound : Nat := Nat.pow 10 digitLimit

/-- An integer in decimal. -/
def intText (n : Int) : Except Fault String :=
  if n.natAbs < digitBound then .ok (toString n) else .error (.tooManyDigits none)

/-- The names of pattern flags, in the order in which they are listed. -/
def patternFlagNames : List (Char × String) :=
  [('i', "re.IGNORECASE"), ('m', "re.MULTILINE"), ('s', "re.DOTALL"), ('x', "re.VERBOSE"),
    ('a', "re.ASCII")]

/-- A compiled pattern: at most 200 characters of its quoted source, and its flags. -/
def patternText (source : String) (flags : List Char) : String :=
  let named := patternFlagNames.filterMap fun (c, name) =>
    if flags.contains c then some name else none
  "re.compile(" ++ String.ofList ((quoteText source).toList.take 200)
    ++ (if named.isEmpty then "" else ", " ++ "|".intercalate named) ++ ")"

namespace CalendarDate

def display (d : CalendarDate) : String :=
  s!"datetime.date({d.year}, {d.month}, {d.day})"

end CalendarDate

/-- A distance from universal time, in days and seconds. -/
def offsetDisplay (seconds : Int) : String :=
  if seconds = 0 then "datetime.timezone.utc"
  else
    let days := seconds.fdiv 86400
    let rest := seconds - days * 86400
    let parts := (if days = 0 then [] else ["days=" ++ toString days])
      ++ (if rest = 0 then [] else ["seconds=" ++ toString rest])
    "datetime.timezone(datetime.timedelta(" ++ ", ".intercalate parts ++ "))"

def Timestamp.display (t : Timestamp) : String :=
  let fields := [t.date.year, t.date.month, t.date.day, t.hour, t.minute]
    ++ (if t.second ≠ 0 ∨ t.microsecond ≠ 0 then [t.second] else [])
    ++ (if t.microsecond ≠ 0 then [t.microsecond] else [])
  "datetime.datetime(" ++ ", ".intercalate (fields.map toString)
    ++ (match t.offset with
      | some s => ", tzinfo=" ++ offsetDisplay s
      | none => "") ++ ")"

namespace Value

mutual

/-- The text of a value in diagnostics. -/
def display : Value → Except Fault String
  | .null => .ok "None"
  | .bool b => .ok (if b then "True" else "False")
  | .int n => intText n
  | .float x => .ok (x.render .display)
  | .str s => .ok (quoteText s)
  | .array _ .list items => do
    return "[" ++ ", ".intercalate (← displayItems items) ++ "]"
  | .array _ .tuple items => do
    let texts ← displayItems items
    return "(" ++ ", ".intercalate texts ++ (if texts.length = 1 then ",)" else ")")
  | .object _ .plain entries => do
    return "\x7b" ++ ", ".intercalate (← displayEntries entries) ++ "\x7d"
  | .object _ .view entries => do
    return "ProxyMapping(\x7b" ++ ", ".intercalate (← displayEntries entries) ++ "\x7d)"
  | .set [] => .ok "set()"
  | .set members => do
    return "\x7b" ++ ", ".intercalate (← displayItems members) ++ "\x7d"
  | .bytes data => .ok (quoteBytes data)
  | .date d => .ok d.display
  | .timestamp t => .ok t.display
  | .pattern source flags => .ok (patternText source flags)
  | .missing => .ok "MISSING"

def displayItems : List Value → Except Fault (List String)
  | [] => .ok []
  | v :: rest => do
    let text ← display v
    return text :: (← displayItems rest)

def displayEntries : Entries → Except Fault (List String)
  | [] => .ok []
  | (k, v) :: rest => do
    let key ← display k
    let text ← display v
    return (key ++ ": " ++ text) :: (← displayEntries rest)

end

/-- The text of a value inside a sentence: strings and dates are not quoted. -/
def label : Value → Except Fault String
  | .str s => .ok s
  | .date d => .ok d.text
  | .timestamp t => .ok (t.text " ")
  | v => v.display

end Value

end Attest

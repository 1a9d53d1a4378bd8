import Attest.Value.Display

/-!
# Reading JSON

A reader of JSON text. An error names what was expected and where; positions are counted in
characters, and are found from how much of the text was left. Integers keep all their digits,
numbers with a fraction or an exponent are rounded to binary64.

## Main definitions

* `Json.Problem`, `Json.ReadError` — what can be wrong with a text
* `Json.readValue` — one value and the rest of the text
* `Json.read` — a whole text
* `Json.ReadError.message` — the error with line, column and position
-/

namespace Attest

namespace Json

/-! ### Errors -/

/-- What is wrong at a place of the text. -/
inductive Problem where
  | noValue
  | noName
  | noColon
  | noComma
  | openString
  | controlCharacter
  | badEscape
  | badUnicodeEscape
  | extraText
  | byteOrderMark
  deriving DecidableEq, Repr, Inhabited

def Problem.text : Problem → String
  | .noValue => "Expecting value"
  | .noName => "Expecting property name enclosed in double quotes"
  | .noColon => "Expecting ':' delimiter"
  | .noComma => "Expecting ',' delimiter"
  | .openString => "Unterminated string starting at"
  | .controlCharacter => "Invalid control character at"
  | .badEscape => "Invalid \\escape"
  | .badUnicodeEscape => "Invalid \\uXXXX escape"
  | .extraText => "Extra data"
  | .byteOrderMark => "Unexpected UTF-8 BOM (decode using utf-8-sig)"

/-- Why a text is no JSON document. -/
inductive ReadError where
  /-- A problem where `remaining` characters of the text were left. -/
  | place (problem : Problem) (remaining : Nat)
  /-- One of the words for numbers that JSON does not have. -/
  | constant (name : String)
  /-- An integer with too many digits. -/
  | digits (count : Nat)
  deriving DecidableEq, Repr, Inhabited

/-- Line and column of a position, both counted from 1. -/
def lineAndColumn (text : List Char) (position : Nat) : Nat × Nat :=
  let before := text.take position
  (before.count '\n' + 1, (before.reverse.takeWhile (· ≠ '\n')).length + 1)

/-- The error as a message about the whole text. -/
def ReadError.message (text : List Char) : ReadError → String
  | .place problem remaining =>
    let position := text.length - remaining
    let (line, column) := lineAndColumn text position
    s!"{problem.text}: line {line} column {column} (char {position})"
  | .constant name => "Unsupported JSON constant: " ++ name
  | .digits count => Fault.digitLimitText (some count)

/-- What a reading step gives: a result and the rest of the text. -/
abbrev Reading (α : Type) := Except ReadError (α × List Char)

def fail {α : Type} (problem : Problem) (rest : List Char) : Reading α :=
  .error (.place problem rest.length)

/-! ### Strings -/

def isBlank (c : Char) : Bool := c == ' ' || c == '\t' || c == '\n' || c == '\r'

def skipBlanks (text : List Char) : List Char := text.dropWhile isBlank

def hexValue? (c : Char) : Option Nat :=
  if '0' ≤ c ∧ c ≤ '9' then some (c.toNat - '0'.toNat)
  else if 'a' ≤ c ∧ c ≤ 'f' then some (c.toNat - 'a'.toNat + 10)
  else if 'A' ≤ c ∧ c ≤ 'F' then some (c.toNat - 'A'.toNat + 10)
  else none

/-- The number written by hexadecimal digits. -/
def hexNumber? (cs : List Char) : Option Nat :=
  cs.foldlM (fun n c => (hexValue? c).map (16 * n + ·)) 0

def simpleEscape? : Char → Option Char
  | '"' => some '"'
  | '\\' => some '\\'
  | '/' => some '/'
  | 'b' => some '\x08'
  | 'f' => some '\x0c'
  | 'n' => some '\n'
  | 'r' => some '\r'
  | 't' => some '\t'
  | _ => none

/-- A character outside the basic plane from its two surrogates. -/
def joinSurrogates (high low : Nat) : Char :=
  Char.ofNat (0x10000 + (high - 0xD800) * 0x400 + (low - 0xDC00))

def isHighSurrogate (n : Nat) : Bool := 0xD800 ≤ n && n < 0xDC00

def isLowSurrogate (n : Nat) : Bool := 0xDC00 ≤ n && n < 0xE000

/-- The rest of a string after its opening quote, where `opening` characters were left. -/
def readString (opening : Nat) : List Char → Reading (List Char)
  | [] => .error (.place .openString opening)
  | '"' :: rest => .ok ([], rest)
  | '\\' :: 'u' :: a :: b :: c :: d :: '\\' :: 'u' :: e :: f :: g :: h :: i :: rest =>
    match hexNumber? [a, b, c, d] with
    | none => .error (.place .badUnicodeEscape (rest.length + 12))
    | some high =>
      if isHighSurrogate high then
        match hexNumber? [e, f, g, h] with
        | none => .error (.place .badUnicodeEscape (rest.length + 6))
        | some low =>
          if isLowSurrogate low then
            (readString opening (i :: rest)).map fun (cs, r) => (joinSurrogates high low :: cs, r)
          else
            (readString opening ('\\' :: 'u' :: e :: f :: g :: h :: i :: rest)).map
              fun (cs, r) => (charOf high :: cs, r)
      else
        (readString opening ('\\' :: 'u' :: e :: f :: g :: h :: i :: rest)).map
          fun (cs, r) => (charOf high :: cs, r)
  | '\\' :: 'u' :: a :: b :: c :: d :: e :: rest =>
    match hexNumber? [a, b, c, d] with
    | none => .error (.place .badUnicodeEscape (rest.length + 6))
    | some n => (readString opening (e :: rest)).map fun (cs, r) => (charOf n :: cs, r)
  | '\\' :: 'u' :: rest => .error (.place .badUnicodeEscape (rest.length + 1))
  | ['\\'] => .error (.place .openString opening)
  | '\\' :: c :: rest =>
    match simpleEscape? c with
    | some e => (readString opening rest).map fun (cs, r) => (e :: cs, r)
    | none => .error (.place .badEscape (rest.length + 2))
  | c :: rest =>
    if c.toNat < 0x20 then .error (.place .controlCharacter (rest.length + 1))
    else (readString opening rest).map fun (cs, r) => (c :: cs, r)

/-! ### Numbers -/

def isDigit (c : Char) : Bool := '0' ≤ c && c ≤ '9'

def digitValue (c : Char) : Nat := c.toNat - '0'.toNat

/-- The number written by decimal digits. -/
def decimalNumber (cs : List Char) : Nat := cs.foldl (fun n c => 10 * n + digitValue c) 0

/-- The digits before the point: a zero stands alone. -/
def integerDigits : List Char → List Char × List Char
  | '0' :: rest => (['0'], rest)
  | text => text.span isDigit

/-- The digits after a point; none if no digit follows it. -/
def fractionDigits : List Char → List Char × List Char
  | '.' :: c :: rest =>
    if isDigit c then (c :: rest).span isDigit else ([], '.' :: c :: rest)
  | text => ([], text)

/-- The exponent; none if no digit follows its letter and sign. -/
def exponentPart : List Char → Option Int × List Char
  | c :: rest =>
    if c = 'e' ∨ c = 'E' then
      let (sign, digits) : Int × List Char := match rest with
        | '-' :: more => (-1, more)
        | '+' :: more => (1, more)
        | more => (1, more)
      match digits.span isDigit with
      | ([], _) => (none, c :: rest)
      | (ds, after) => (some (sign * decimalNumber ds), after)
    else (none, c :: rest)
  | [] => (none, [])

/-- A number; `none` if the text does not start with one. -/
def readNumber? (text : List Char) : Option (Reading Value) :=
  let (negative, unsigned) := match text with
    | '-' :: rest => (true, rest)
    | _ => (false, text)
  match integerDigits unsigned with
  | ([], _) => none
  | (whole, afterWhole) =>
    let (fraction, afterFraction) := fractionDigits afterWhole
    let (exponent, rest) := exponentPart afterFraction
    if fraction.isEmpty ∧ exponent.isNone then
      if digitLimit < whole.length then some (.error (.digits whole.length))
      else
        let n : Int := decimalNumber whole
        some (.ok (.int (if negative then -n else n), rest))
    else
      let shift : Int := exponent.getD 0 - fraction.length
      some (.ok (.float (.ofDecimal negative (decimalNumber (whole ++ fraction)) shift), rest))

/-! ### Values -/

mutual

/-- One value. The fuel bounds the depth of nesting and the number of elements. -/
def readValue : Nat → List Char → Reading Value
  | 0, text => fail .noValue text
  | fuel + 1, text =>
    match text with
    | '"' :: rest => (readString text.length rest).map fun (cs, r) => (.str (.ofList cs), r)
    | '\x7b' :: rest =>
      match skipBlanks rest with
      | '\x7d' :: after => .ok (.dict [], after)
      | members => (readMembers fuel members).map fun (es, r) => (.dict (Value.ofPairs es), r)
    | '[' :: rest =>
      match skipBlanks rest with
      | ']' :: after => .ok (.list [], after)
      | items => (readItems fuel items).map fun (vs, r) => (.list vs, r)
    | 'n' :: 'u' :: 'l' :: 'l' :: rest => .ok (.null, rest)
    | 't' :: 'r' :: 'u' :: 'e' :: rest => .ok (.bool true, rest)
    | 'f' :: 'a' :: 'l' :: 's' :: 'e' :: rest => .ok (.bool false, rest)
    | 'N' :: 'a' :: 'N' :: _ => .error (.constant "NaN")
    | 'I' :: 'n' :: 'f' :: 'i' :: 'n' :: 'i' :: 't' :: 'y' :: _ => .error (.constant "Infinity")
    | '-' :: 'I' :: 'n' :: 'f' :: 'i' :: 'n' :: 'i' :: 't' :: 'y' :: _ =>
      .error (.constant "-Infinity")
    | _ => (readNumber? text).getD (fail .noValue text)

/-- The elements of an array and its closing bracket. -/
def readItems : Nat → List Char → Except ReadError (List Value × List Char)
  | 0, text => fail .noValue text
  | fuel + 1, text => do
    let (v, rest) ← readValue fuel text
    match skipBlanks rest with
    | ']' :: after => return ([v], after)
    | ',' :: after =>
      let (vs, rest) ← readItems fuel (skipBlanks after)
      return (v :: vs, rest)
    | other => fail .noComma other

/-- The members of an object and its closing brace. -/
def readMembers : Nat → List Char → Except ReadError (Entries × List Char)
  | 0, text => fail .noName text
  | fuel + 1, text => do
    match text with
    | '"' :: afterQuote =>
      let (name, rest) ← readString text.length afterQuote
      match skipBlanks rest with
      | ':' :: afterColon =>
        let (v, rest) ← readValue fuel (skipBlanks afterColon)
        match skipBlanks rest with
        | '\x7d' :: after => return ([(.str (.ofList name), v)], after)
        | ',' :: after =>
          let (es, rest) ← readMembers fuel (skipBlanks after)
          return ((.str (.ofList name), v) :: es, rest)
        | other => fail .noComma other
      | other => fail .noColon other
    | _ => fail .noName text

end

/-- The value that makes up a whole text. -/
def read (text : List Char) : Except ReadError Value := do
  if text.head? == some '\uFEFF' then throw (.place .byteOrderMark text.length)
  let (v, rest) ← readValue (2 * text.length + 2) (skipBlanks text)
  match skipBlanks rest with
  | [] => return v
  | extra => throw (.place .extraText extra.length)

end Json

end Attest

/-!
# Cursors

A place in a YAML text. Indentation and the reach of keys depend on where things stand, so a cursor
knows its line and column beside the characters that are left.

## Main definitions

* `Cursor`, `Cursor.advance` — a place, and the next one
* `Cursor.takeWhile`, `Cursor.lineBreak?` — reading on
* `isLineBreak`, `endsWord` — what ends a line and a word; the end of the text ends both
-/

namespace Attest.Yaml

/-! ### Characters -/

def isLineBreak (c : Char) : Bool :=
  c == '\n' || c == '\r' || c == '\x85' || c == '\u2028' || c == '\u2029'

def isBlank (c : Char) : Bool := c == ' ' || c == '\t'

/-- The end of the text or of a line, or a space. -/
def endsField : Option Char → Bool
  | none => true
  | some c => c == ' ' || isLineBreak c

/-- The end of the text or of a line, or a blank. -/
def endsWord : Option Char → Bool
  | none => true
  | some c => isBlank c || isLineBreak c

/-- Whether there is a next character and it is one of a text. -/
def isOneOf (chars : String) : Option Char → Bool
  | none => false
  | some c => chars.toList.contains c

def isDigit (c : Char) : Bool := '0' ≤ c && c ≤ '9'

/-- The characters of names: letters and digits without accents, minus and underscore. -/
def isNameChar (c : Char) : Bool :=
  isDigit c || ('A' ≤ c && c ≤ 'Z') || ('a' ≤ c && c ≤ 'z') || c == '-' || c == '_'

/-! ### Places -/

/-- A place in a text, with the characters from there on. -/
structure Cursor where
  rest : List Char
  /-- The number of characters before. -/
  index : Nat := 0
  line : Nat := 0
  column : Nat := 0
  deriving Repr, Inhabited

namespace Cursor

def peek (c : Cursor) : Option Char := c.rest.head?

/-- The character that is `n` places ahead. -/
def peekAt (n : Nat) (c : Cursor) : Option Char := c.rest[n]?

def atEnd (c : Cursor) : Bool := c.rest.isEmpty

/-- The place behind a character. A carriage return before a line feed does not end the line, and
a byte order mark takes no column. -/
def advance (c : Cursor) : Cursor :=
  match c.rest with
  | [] => c
  | ch :: rest =>
    if isLineBreak ch && !(ch == '\r' && rest.head? == some '\n') then
      { rest, index := c.index + 1, line := c.line + 1, column := 0 }
    else if ch == '\uFEFF' then { c with rest, index := c.index + 1 }
    else { c with rest, index := c.index + 1, column := c.column + 1 }

def advanceBy : Nat → Cursor → Cursor
  | 0, c => c
  | n + 1, c => advanceBy n c.advance

/-- The characters up to the first that has not the property, and the place behind them. -/
def takeWhile (p : Char → Bool) (c : Cursor) : List Char × Cursor :=
  let taken := c.rest.takeWhile p
  (taken, c.advanceBy taken.length)

def skipWhile (p : Char → Bool) (c : Cursor) : Cursor := (c.takeWhile p).2

def skipSpaces (c : Cursor) : Cursor := c.skipWhile (· == ' ')

/-- Skip spaces that stand left of a column. -/
def skipSpacesTo (column : Nat) (c : Cursor) : Cursor :=
  c.advanceBy (min (c.rest.takeWhile (· == ' ')).length (column - c.column))

/-- A comment, if there is one. -/
def skipComment (c : Cursor) : Cursor :=
  if c.peek == some '#' then c.skipWhile (!isLineBreak ·) else c

/-- The line break at the place, in its normal form, and the place behind it. -/
def lineBreak? (c : Cursor) : Option (Char × Cursor) :=
  match c.rest with
  | '\r' :: '\n' :: _ => some ('\n', c.advanceBy 2)
  | ch :: _ =>
    if ch == '\u2028' || ch == '\u2029' then some (ch, c.advance)
    else if isLineBreak ch then some ('\n', c.advance)
    else none
  | [] => none

/-- The place behind a line of which nothing but blanks and a comment is left. -/
def lineRest? (c : Cursor) : Option Cursor :=
  let c := c.skipSpaces.skipComment
  match c.lineBreak? with
  | some (_, c) => some c
  | none => if c.atEnd then some c else none

/-- Whether three equal characters stand here as a word. -/
def startsMarker (mark : Char) (c : Cursor) : Bool :=
  match c.rest with
  | x :: y :: z :: after => x == mark && y == mark && z == mark && endsWord after.head?
  | _ => false

/-- Whether a line that begins here separates documents. -/
def startsSeparator (c : Cursor) : Bool := c.startsMarker '-' || c.startsMarker '.'

end Cursor

end Attest.Yaml

import Attest.Fault
import Attest.Json.Reader
import Attest.Yaml.Cursor

/-!
# Scalars as they are written

The three ways to write a scalar: plainly, in quotes, and as a block of lines. All of them fold
lines in one way: a single line feed between two lines becomes a space, and of several the first
one is dropped.

## Main definitions

* `readPlain` — a plain scalar
* `readQuoted` — a scalar in single or double quotes
* `readBlock` — a literal or folded block

Fuel bounds the number of pieces; a scalar has no more pieces than characters.
-/

namespace Attest.Yaml

/-- How line breaks between two lines are folded. -/
def foldBreaks (first : Char) (others : List Char) : List Char :=
  if first ≠ '\n' then first :: others
  else if others.isEmpty then [' '] else others

/-! ### Plain scalars -/

/-- Whether a character ends a word of a plain scalar. In flow collections the indicators of the
collections do, and a colon may stand before one of them. -/
def endsPlain (flow : Bool) (ch : Char) (next : Option Char) : Bool :=
  endsWord (some ch)
    || (ch == ':' && (endsWord next || (flow && isOneOf ",[]\x7b\x7d" next)))
    || (flow && isOneOf ",?[]\x7b\x7d" (some ch))

/-- A word of a plain scalar. -/
def plainWord (flow : Bool) : List Char → List Char
  | [] => []
  | ch :: rest => if endsPlain flow ch rest.head? then [] else ch :: plainWord flow rest

/-- The line breaks and spaces between two lines; `none` if documents are separated there. -/
def plainBreaks : Nat → Cursor → Option (List Char) × Cursor
  | 0, c => (some [], c)
  | fuel + 1, c =>
    let c := c.skipSpaces
    match c.lineBreak? with
    | none => (some [], c)
    | some (ch, c) =>
      if c.startsSeparator then (none, c)
      else
        let (others, c) := plainBreaks fuel c
        (others.map (ch :: ·), c)

/-- What stands between two words, the place behind it, and whether a line was ended. -/
def plainGap (c : Cursor) : List Char × Cursor × Bool :=
  let (spaces, c) := c.takeWhile (· == ' ')
  match c.lineBreak? with
  | none => (spaces, c, false)
  | some (ch, c) =>
    if c.startsSeparator then ([], c, true)
    else match plainBreaks c.rest.length c with
      | (some others, c) => (foldBreaks ch others, c, true)
      | (none, c) => ([], c, true)

/-- The words from a place on. A word behind a line end must be indented enough, unless it stands
in a flow collection. -/
def plainWords (flow : Bool) (indent : Int) :
    Nat → List Char → Bool → Cursor → List Char × Cursor × Bool
  | 0, _, ended, c => ([], c, ended)
  | fuel + 1, gap, ended, c =>
    let word := plainWord flow c.rest
    if word.isEmpty then ([], c, ended)
    else
      let (next, c, ended) := plainGap (c.advanceBy word.length)
      if next.isEmpty || c.peek == some '#' || (!flow && (c.column : Int) < indent) then
        (gap ++ word, c, ended)
      else
        let (words, c, ended) := plainWords flow indent fuel next ended c
        (gap ++ word ++ words, c, ended)

/-- A plain scalar, the place behind it, and whether a line was ended behind its last word. -/
def readPlain (flow : Bool) (indent : Int) (c : Cursor) : List Char × Cursor × Bool :=
  plainWords flow indent (c.rest.length + 1) [] false c

/-! ### Quoted scalars -/

/-- The characters that are escaped with one letter. -/
def escapedChar? : Char → Option Char
  | '0' => some '\x00'
  | 'a' => some '\x07'
  | 'b' => some '\x08'
  | 't' => some '\t'
  | '\t' => some '\t'
  | 'n' => some '\n'
  | 'v' => some '\x0B'
  | 'f' => some '\x0C'
  | 'r' => some '\r'
  | 'e' => some '\x1B'
  | ' ' => some ' '
  | '"' => some '"'
  | '\\' => some '\\'
  | '/' => some '/'
  | 'N' => some '\x85'
  | '_' => some '\xA0'
  | 'L' => some '\u2028'
  | 'P' => some '\u2029'
  | _ => none

/-- The number of digits behind the letter of a numeric escape. -/
def escapeWidth? : Char → Option Nat
  | 'x' => some 2
  | 'u' => some 4
  | 'U' => some 8
  | _ => none

/-- The character with a number that was written in an escape. -/
def escapedNumber (n : Nat) : Except Fault Char :=
  if 0x10FFFF < n then .error (.outOfRange "character number is out of range")
  else .ok (charOf n)

/-- Line breaks in quotes, and the blanks before the next line. -/
def quotedBreaks : Nat → Cursor → Except Fault (List Char × Cursor)
  | 0, c => .ok ([], c)
  | fuel + 1, c =>
    if c.startsSeparator then .error .notYaml
    else
      let c := c.skipWhile isBlank
      match c.lineBreak? with
      | none => .ok ([], c)
      | some (ch, c) => do
        let (others, c) ← quotedBreaks fuel c
        return (ch :: others, c)

/-- What a backslash stands for, from the character behind it on. -/
def readEscape (c : Cursor) : Except Fault (List Char × Cursor) :=
  match c.peek with
  | none => .error .notYaml
  | some ch =>
    match escapedChar? ch, escapeWidth? ch with
    | some x, _ => .ok ([x], c.advance)
    | none, some width =>
      let digits := c.advance.rest.take width
      if digits.length < width then .error .notYaml
      else match Json.hexNumber? digits with
        | none => .error .notYaml
        | some n => do return ([← escapedNumber n], c.advanceBy (width + 1))
    | none, none =>
      match c.lineBreak? with
      | some (_, c) => quotedBreaks (c.rest.length + 1) c
      | none => .error .notYaml

/-- Characters in quotes up to a blank, a line break or the closing quote. -/
def quotedRun (double : Bool) : Nat → Cursor → Except Fault (List Char × Cursor)
  | 0, c => .ok ([], c)
  | fuel + 1, c =>
    let take := fun (ch : Char) (c : Cursor) => do
      let (others, c) ← quotedRun double fuel c
      return (ch :: others, c)
    match c.rest with
    | [] => .ok ([], c)
    | ch :: rest =>
      if endsWord (some ch) then .ok ([], c)
      else if ch == '\'' && !double then
        if rest.head? == some '\'' then take '\'' (c.advanceBy 2) else .ok ([], c)
      else if ch == '"' && double then .ok ([], c)
      else if ch == '\\' && double then do
        let (chars, c) ← readEscape c.advance
        let (others, c) ← quotedRun double fuel c
        return (chars ++ others, c)
      else take ch c.advance

/-- Blanks and line breaks in quotes. -/
def quotedGap (c : Cursor) : Except Fault (List Char × Cursor) :=
  let (blanks, c) := c.takeWhile isBlank
  if c.atEnd then .error .notYaml
  else match c.lineBreak? with
    | none => .ok (blanks, c)
    | some (ch, c) => do
      let (others, c) ← quotedBreaks (c.rest.length + 1) c
      return (foldBreaks ch others, c)

/-- The characters up to the closing quote, and the place behind it. -/
def quotedBody (double : Bool) : Nat → Cursor → Except Fault (List Char × Cursor)
  | 0, _ => .error .notYaml
  | fuel + 1, c => do
    let (run, c) ← quotedRun double (c.rest.length + 1) c
    if c.peek == some (if double then '"' else '\'') then return (run, c.advance)
    let (gap, c) ← quotedGap c
    let (others, c) ← quotedBody double fuel c
    return (run ++ gap ++ others, c)

/-- A scalar in quotes, from the opening quote on. -/
def readQuoted (double : Bool) (c : Cursor) : Except Fault (List Char × Cursor) :=
  quotedBody double (c.rest.length + 1) c.advance

/-! ### Blocks -/

/-- What becomes of the line breaks at the end of a block. -/
inductive Chomping where
  | strip
  | clip
  | keep
  deriving DecidableEq, Repr, Inhabited

def chomping? : Option Char → Option Chomping
  | some '+' => some .keep
  | some '-' => some .strip
  | _ => none

/-- The indentation that is given for a block. -/
def readIncrement (c : Cursor) : Except Fault (Option Nat × Cursor) :=
  match c.peek with
  | some ch =>
    if !isDigit ch then .ok (none, c)
    else if ch == '0' then .error .notYaml
    else .ok (some (ch.toNat - '0'.toNat), c.advance)
  | none => .ok (none, c)

/-- How a block ends and how it is indented, as its first line says, in either order. -/
def readBlockHeader (c : Cursor) : Except Fault (Chomping × Option Nat × Cursor) := do
  match chomping? c.peek with
  | some chomping =>
    let (increment, c) ← readIncrement c.advance
    if endsField c.peek then return (chomping, increment, c) else throw .notYaml
  | none =>
    let (increment, c) ← readIncrement c
    let (chomping, c) := match increment, chomping? c.peek with
      | some _, some chomping => (chomping, c.advance)
      | _, _ => (.clip, c)
    if endsField c.peek then return (chomping, increment, c) else throw .notYaml

/-- Empty lines at the start of a block, and the greatest number of spaces in a line of them or
before the first word. -/
def blockIndentation : Nat → Cursor → List Char × Nat × Cursor
  | 0, c => ([], 0, c)
  | fuel + 1, c =>
    let after := c.skipSpaces
    let width := if c.peek == some ' ' then after.column else 0
    match after.lineBreak? with
    | none => ([], width, after)
    | some (ch, c) =>
      let (others, greatest, c) := blockIndentation fuel c
      (ch :: others, max width greatest, c)

/-- Empty lines in a block, and the indentation before the next line. -/
def blockBreaks (indent : Nat) : Nat → Cursor → List Char × Cursor
  | 0, c => ([], c)
  | fuel + 1, c =>
    let c := c.skipSpacesTo indent
    match c.lineBreak? with
    | none => ([], c)
    | some (ch, c) =>
      let (others, c) := blockBreaks indent fuel c
      (ch :: others, c)

/-- The lines of a block: their text, the last line break, and the breaks behind it. -/
structure BlockLines where
  text : List Char := []
  lastBreak : List Char := []
  trailing : List Char := []
  after : Cursor

/-- The lines from a place on, with the empty lines before it. Lines are folded unless one of them
begins with a blank. -/
def blockLines (folded : Bool) (indent : Nat) : Nat → List Char → Cursor → BlockLines
  | 0, breaks, c => { trailing := breaks, after := c }
  | fuel + 1, breaks, c =>
    if c.column ≠ indent || c.atEnd then { trailing := breaks, after := c }
    else
      let isFlush := fun (c : Cursor) => !isOneOf " \t" c.peek
      let flush := isFlush c
      let (line, c) := c.takeWhile (!isLineBreak ·)
      let (lastBreak, c) := match c.lineBreak? with
        | some (ch, c) => ([ch], c)
        | none => ([], c)
      let (next, c) := blockBreaks indent (c.rest.length + 1) c
      if c.column ≠ indent || c.atEnd then
        { text := breaks ++ line, lastBreak := lastBreak, trailing := next, after := c }
      else
        let joint := if folded && lastBreak == ['\n'] && flush && isFlush c then
            (if next.isEmpty then [' '] else [])
          else lastBreak
        let others := blockLines folded indent fuel next c
        { others with text := breaks ++ line ++ joint ++ others.text }

/-- A block scalar below the given indentation, from its indicator on. -/
def readBlock (folded : Bool) (indent : Int) (c : Cursor) : Except Fault (List Char × Cursor) := do
  let (chomping, increment, c) ← readBlockHeader c.advance
  let some c := c.lineRest? | throw .notYaml
  let least := max (indent + 1) 1 |>.toNat
  let (breaks, column, c) := match increment with
    | some n =>
      let column := least + n - 1
      let (breaks, c) := blockBreaks column (c.rest.length + 1) c
      (breaks, column, c)
    | none =>
      let (breaks, greatest, c) := blockIndentation (c.rest.length + 1) c
      (breaks, max least greatest, c)
  let lines := blockLines folded column (c.rest.length + 1) breaks c
  let ending := match chomping with
    | .strip => []
    | .clip => lines.lastBreak
    | .keep => lines.lastBreak ++ lines.trailing
  return (lines.text ++ ending, lines.after)

end Attest.Yaml

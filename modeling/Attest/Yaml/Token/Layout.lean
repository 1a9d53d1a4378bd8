import Attest.Yaml.Property
import Attest.Yaml.Scalar.Written

/-!
# Tokens from the layout of a text

A text is cut into tokens from the front to the back. What makes a key is known only at the colon
behind it, so for every level of flow collections the place is remembered where a key may have
begun, and the tokens in front of it are put there when the colon comes.

## Main definitions

* `Layout` — the tokens so far, and what the place at hand allows
* `Layout.next` — one more token
* `Token.ofText` — all tokens of a text

## Implementation notes

A key must be written in one line, in at most 1024 characters. Where a block mapping must go on
with a key, its absence is an error; elsewhere a place where no colon follows is simply forgotten.
-/

namespace Attest.Yaml

/-- A place where a key may have begun. -/
structure PendingKey where
  /-- The level of flow collections. -/
  level : Nat
  /-- The number of tokens before the place. -/
  position : Nat
  required : Bool
  start : Cursor
  deriving Repr, Inhabited

/-- A text that is being cut into tokens. -/
structure Layout where
  cursor : Cursor
  /-- The tokens so far, the last one first. -/
  emitted : List Token := []
  /-- How many flow collections are open. -/
  level : Nat := 0
  /-- The column of the innermost open block; -1 outside of all. -/
  indent : Int := -1
  outerIndents : List Int := []
  /-- Whether a key may begin here. -/
  keyAllowed : Bool := true
  pending : List PendingKey := []
  finished : Bool := false
  deriving Repr, Inhabited

namespace Layout

/-- A step through the text. -/
abbrev Step := Layout → Except Fault Layout

def inFlow (s : Layout) : Bool := s.level ≠ 0

def emit (t : Token) (s : Layout) : Layout := { s with emitted := t :: s.emitted }

/-- Put a token behind the first `position` ones. -/
def emitAt (position : Nat) (t : Token) (s : Layout) : Layout :=
  { s with emitted := s.emitted.insertIdx (s.emitted.length - position) t }

def allowKey (allowed : Bool) (s : Layout) : Layout := { s with keyAllowed := allowed }

def skip (n : Nat) (s : Layout) : Layout := { s with cursor := s.cursor.advanceBy n }

/-! ### Indentation -/

/-- Close the blocks that begin right of a column. The bound is the number of open blocks. -/
def closeBlocksFrom (column : Int) : List Int → Layout → Layout
  | [], s => s
  | outer :: rest, s =>
    if column < s.indent then
      closeBlocksFrom column rest
        ((s.emit .blockEnd) |> fun s => { s with indent := outer, outerIndents := rest })
    else s

def closeBlocks (column : Int) (s : Layout) : Layout :=
  if s.inFlow then s else closeBlocksFrom column s.outerIndents s

/-- Whether a block that begins at a column is a new one, and the layout inside of it. -/
def openBlock (column : Nat) (s : Layout) : Bool × Layout :=
  if s.indent < column then
    (true, { s with indent := column, outerIndents := s.indent :: s.outerIndents })
  else (false, s)

/-! ### Keys -/

def isStale (s : Layout) (key : PendingKey) : Bool :=
  key.start.line ≠ s.cursor.line || key.start.index + 1024 < s.cursor.index

/-- Forget the places that are too far away. -/
def dropStale : Step := fun s =>
  if s.pending.any fun key => s.isStale key && key.required then .error .notYaml
  else .ok { s with pending := s.pending.filter (!s.isStale ·) }

/-- Forget the place on the current level. -/
def dropKey : Step := fun s =>
  if s.pending.any fun key => key.level = s.level && key.required then .error .notYaml
  else .ok { s with pending := s.pending.filter (·.level ≠ s.level) }

/-- Remember the place at hand, if a key may begin here. -/
def saveKey : Step := fun s =>
  if !s.keyAllowed then .ok s
  else do
    let s ← s.dropKey
    let key : PendingKey := {
      level := s.level, position := s.emitted.length, start := s.cursor
      required := !s.inFlow && s.indent = s.cursor.column }
    return { s with pending := key :: s.pending }

/-! ### Blanks -/

/-- Skip blanks, comments and line ends. Outside of flow collections a key may begin in every
line. -/
def skipBlanksFrom : Nat → Layout → Layout
  | 0, s => s
  | fuel + 1, s =>
    let c := s.cursor.skipSpaces.skipComment
    match c.lineBreak? with
    | none => { s with cursor := c }
    | some (_, c) =>
      skipBlanksFrom fuel { s with cursor := c, keyAllowed := s.keyAllowed || !s.inFlow }

/-- The same from the start of a text on, which may be a byte order mark. -/
def skipBlanks (s : Layout) : Layout :=
  let atMark := s.cursor.index = 0 && s.cursor.peek == some '\uFEFF'
  skipBlanksFrom (s.cursor.rest.length + 1) (if atMark then s.skip 1 else s)

/-! ### Tokens -/

/-- Before a token that ends all blocks. -/
def leaveBlocks : Step := fun s => do
  let s ← (s.closeBlocks (-1)).dropKey
  return s.allowKey false

def finish : Step := fun s => do
  let s ← s.leaveBlocks
  return { s.emit .streamEnd with pending := [], finished := true }

def directive : Step := fun s => do
  let s ← s.leaveBlocks
  let (d, c) ← readDirective s.cursor
  return { s.emit (.directive d) with cursor := c }

def documentMark (t : Token) : Step := fun s => do
  let s ← s.leaveBlocks
  return (s.emit t).skip 3

def flowStart (t : Token) : Step := fun s => do
  let s ← s.saveKey
  return ({ s with level := s.level + 1 }.allowKey true |>.emit t).skip 1

def flowEnd (t : Token) : Step := fun s => do
  let s ← s.dropKey
  return ({ s with level := s.level - 1 }.allowKey false |>.emit t).skip 1

def flowEntry : Step := fun s => do
  let s ← (s.allowKey true).dropKey
  return (s.emit .flowEntry).skip 1

/-- Before an entry or key that may begin a block. -/
def beginBlock (start : Token) : Step := fun s =>
  if s.inFlow then .ok s
  else if !s.keyAllowed then .error .notYaml
  else
    let (opened, s) := s.openBlock s.cursor.column
    .ok (if opened then s.emit start else s)

def blockEntry : Step := fun s => do
  let s ← s.beginBlock .blockSequenceStart
  let s ← (s.allowKey true).dropKey
  return (s.emit .blockEntry).skip 1

def key : Step := fun s => do
  let s ← s.beginBlock .blockMappingStart
  let s ← (s.allowKey (!s.inFlow)).dropKey
  return (s.emit .key).skip 1

/-- A colon makes a key of what was remembered on its level, or of nothing. -/
def value : Step := fun s =>
  match s.pending.find? (·.level = s.level) with
  | some key =>
    let s := { s with pending := s.pending.filter (·.level ≠ s.level) }
    let s := s.emitAt key.position .key
    let (opened, s) := if s.inFlow then (false, s) else s.openBlock key.start.column
    let s := if opened then s.emitAt key.position .blockMappingStart else s
    .ok ((s.allowKey false |>.emit .value).skip 1)
  | none => do
    let s ← s.beginBlock .blockMappingStart
    let s ← (s.allowKey (!s.inFlow)).dropKey
    return (s.emit .value).skip 1

def named (token : String → Token) : Step := fun s => do
  let s ← s.saveKey
  let (name, c) ← readName s.cursor
  return { (s.allowKey false).emit (token name) with cursor := c }

def tag : Step := fun s => do
  let s ← s.saveKey
  let (name, c) ← readTag s.cursor
  return { (s.allowKey false).emit (.tag name) with cursor := c }

def block (folded : Bool) : Step := fun s => do
  let s ← (s.allowKey true).dropKey
  let (text, c) ← readBlock folded s.indent s.cursor
  return { s.emit (.scalar (String.ofList text) false) with cursor := c }

def quoted (double : Bool) : Step := fun s => do
  let s ← s.saveKey
  let (text, c) ← readQuoted double s.cursor
  return { (s.allowKey false).emit (.scalar (String.ofList text) false) with cursor := c }

def plain : Step := fun s => do
  let s ← s.saveKey
  let (text, c, ended) := readPlain s.inFlow (s.indent + 1) s.cursor
  return { (s.allowKey ended).emit (.scalar (String.ofList text) true) with cursor := c }

/-! ### Choosing the token -/

/-- Whether a plain scalar may begin here. -/
def startsPlain (s : Layout) (ch : Char) (next : Option Char) : Bool :=
  (!endsWord (some ch) && !isOneOf "-?:,[]\x7b\x7d#&*!|>'\"%@\x60" (some ch))
    || (!endsWord next && (ch == '-' || (!s.inFlow && (ch == '?' || ch == ':'))))

/-- The token at hand. -/
def token : Step := fun s =>
  let c := s.cursor
  let next := c.peekAt 1
  let first := c.column = 0
  match c.peek with
  | none => s.finish
  | some ch =>
    if ch == '%' && first then s.directive
    else if first && c.startsMarker '-' then s.documentMark .documentStart
    else if first && c.startsMarker '.' then s.documentMark .documentEnd
    else if ch == '[' then s.flowStart .flowSequenceStart
    else if ch == '\x7b' then s.flowStart .flowMappingStart
    else if ch == ']' then s.flowEnd .flowSequenceEnd
    else if ch == '\x7d' then s.flowEnd .flowMappingEnd
    else if ch == ',' then s.flowEntry
    else if ch == '-' && endsWord next then s.blockEntry
    else if ch == '?' && (s.inFlow || endsWord next) then s.key
    else if ch == ':' && (s.inFlow || endsWord next) then s.value
    else if ch == '*' then s.named .alias_
    else if ch == '&' then s.named .anchor
    else if ch == '!' then s.tag
    else if ch == '|' && !s.inFlow then s.block false
    else if ch == '>' && !s.inFlow then s.block true
    else if ch == '\'' then s.quoted false
    else if ch == '"' then s.quoted true
    else if s.startsPlain ch next then s.plain
    else .error .notYaml

/-- One more token, with the ends of the blocks that it leaves. -/
def next : Step := fun s => do
  let s ← s.skipBlanks.dropStale
  (s.closeBlocks s.cursor.column).token

/-- Go on to the end of the text. Every token but the last takes a character. -/
def run : Nat → Step
  | 0, s => .ok s
  | fuel + 1, s =>
    if s.finished then .ok s
    else do
      let s ← s.next
      s.run fuel

end Layout

/-- The tokens of a text. -/
def Token.ofText (text : List Char) : Except Fault (List Token) := do
  let s ← Layout.run (text.length + 2) { cursor := { rest := text } }
  return s.emitted.reverse

end Attest.Yaml

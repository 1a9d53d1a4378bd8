import Attest.Fault
import Attest.Json.Reader
import Attest.Text.Encoding
import Attest.Yaml.Cursor
import Attest.Yaml.Token

/-!
# Names, tags and directives

What stands before a node or a document: anchors and aliases, tags, and lines of directives.

## Main definitions

* `readName` — the name of an anchor or alias
* `readTag` — a tag
* `readDirective` — a line of a directive
-/

namespace Attest.Yaml

/-- A name of at least one character. -/
def readWord (c : Cursor) : Except Fault (String × Cursor) :=
  let (name, c) := c.takeWhile isNameChar
  if name.isEmpty then .error .notYaml else .ok (String.ofList name, c)

/-- The name of an anchor or alias, from its indicator on. -/
def readName (c : Cursor) : Except Fault (String × Cursor) := do
  let (name, c) ← readWord c.advance
  if endsWord c.peek || isOneOf "?:,]\x7d%@\x60" c.peek then return (name, c)
  else throw .notYaml

/-! ### Tags -/

def isTagChar (c : Char) : Bool := isNameChar c || isOneOf ";/?:@&=+$,_.!~*'()[]%" (some c)

/-- The bytes of a run of percent escapes. -/
def readEscapedBytes : Nat → Cursor → Except Fault (List UInt8 × Cursor)
  | 0, c => .ok ([], c)
  | fuel + 1, c =>
    match c.rest with
    | '%' :: high :: low :: _ =>
      match Json.hexNumber? [high, low] with
      | none => .error .notYaml
      | some n => do
        let (others, c) ← readEscapedBytes fuel (c.advanceBy 3)
        return (UInt8.ofNat n :: others, c)
    | '%' :: _ => .error .notYaml
    | _ => .ok ([], c)

def tagText : Nat → Cursor → Except Fault (List Char × Cursor)
  | 0, c => .ok ([], c)
  | fuel + 1, c =>
    match c.peek with
    | some '%' => do
      let (bytes, c) ← readEscapedBytes (c.rest.length + 1) c
      match Encoding.decodeText bytes with
      | .error _ => throw .notYaml
      | .ok chars =>
        let (others, c) ← tagText fuel c
        return (chars ++ others, c)
    | some ch =>
      if isTagChar ch then do
        let (others, c) ← tagText fuel c.advance
        return (ch :: others, c)
      else .ok ([], c)
    | none => .ok ([], c)

/-- The text of a tag, of at least one character. -/
def readTagText (c : Cursor) : Except Fault (String × Cursor) := do
  let (text, after) ← tagText (c.rest.length + 1) c
  if c.peek.any isTagChar then return (String.ofList text, after) else throw .notYaml

/-- A handle: a mark, or a name between two marks, which may be empty. -/
def readHandle (c : Cursor) : Except Fault (String × Cursor) :=
  if c.peek ≠ some '!' then .error .notYaml
  else
    let (name, after) := c.advance.takeWhile isNameChar
    if c.peekAt 1 == some ' ' then .ok ("!", c.advance)
    else if after.peek == some '!' then .ok (String.ofList ('!' :: name ++ ['!']), after.advance)
    else .error .notYaml

/-- Whether the word of a tag holds a second mark. -/
def hasHandle (c : Cursor) : Bool :=
  (c.advance.rest.takeWhile fun ch => !endsField (some ch)).contains '!'

/-- A tag, from its mark on. -/
def readTag (c : Cursor) : Except Fault (TagName × Cursor) := do
  let (name, c) ← if c.peekAt 1 == some '<' then do
      let (suffix, c) ← readTagText (c.advanceBy 2)
      if c.peek ≠ some '>' then throw .notYaml
      pure ((⟨none, suffix⟩ : TagName), c.advance)
    else if endsWord (c.peekAt 1) then pure (⟨none, "!"⟩, c.advance)
    else if hasHandle c then do
      let (handle, c) ← readHandle c
      let (suffix, c) ← readTagText c
      pure (⟨some handle, suffix⟩, c)
    else do
      let (suffix, c) ← readTagText c.advance
      pure (⟨some "!", suffix⟩, c)
  if endsField c.peek then return (name, c) else throw .notYaml

/-! ### Directives -/

def readDecimal (c : Cursor) : Except Fault (Nat × Cursor) :=
  let (digits, c) := c.takeWhile isDigit
  if digits.isEmpty then .error .notYaml
  else if 4300 < digits.length then .error (.tooManyDigits (some digits.length))
  else .ok (Json.decimalNumber digits, c)

def readVersion (c : Cursor) : Except Fault (Directive × Cursor) := do
  let (major, c) ← readDecimal c.skipSpaces
  if c.peek ≠ some '.' then throw .notYaml
  let (_, c) ← readDecimal c.advance
  if endsField c.peek then return (.version major, c) else throw .notYaml

def readTagHandle (c : Cursor) : Except Fault (Directive × Cursor) := do
  let (handle, c) ← readHandle c.skipSpaces
  if c.peek ≠ some ' ' then throw .notYaml
  let (beginning, c) ← readTagText c.skipSpaces
  if endsField c.peek then return (.tagHandle handle beginning, c) else throw .notYaml

/-- A line of a directive, from its percent sign on. -/
def readDirective (c : Cursor) : Except Fault (Directive × Cursor) := do
  let (name, c) ← readWord c.advance
  if !endsField c.peek then throw .notYaml
  let (directive, c) ← match name with
    | "YAML" => readVersion c
    | "TAG" => readTagHandle c
    | _ => pure (.unknown, c.skipWhile (!isLineBreak ·))
  match c.lineRest? with
  | some c => return (directive, c)
  | none => throw .notYaml

end Attest.Yaml

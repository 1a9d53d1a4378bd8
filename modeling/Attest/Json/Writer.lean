import Attest.Number.Shortest
import Attest.Value.Display
import Attest.Value.Order

/-!
# Writing JSON

One writer with a record of the choices that differ between its uses: the compact form of
diagnostics, the form that suites are fingerprinted from, and the indented form of reports.

## Main definitions

* `Json.Style` — separators, indentation, escaping, order of keys, the fallback for other values
* `Json.write` — the text of a value in a style
* `Json.Style.compact`, `canonical`, `report` — the three styles
-/

namespace Attest

namespace Json

/-! ### Strings -/

/-- A unit of UTF-16 as an escape. -/
def unitEscape (n : Nat) : List Char := '\\' :: 'u' :: hexDigits 4 n

/-- The escapes of a character: one, or two for a character outside the basic plane. -/
def asciiEscape (c : Char) : List Char :=
  let n := c.toNat
  if n < 0x10000 then unitEscape n
  else unitEscape (0xD800 + (n - 0x10000) / 0x400) ++ unitEscape (0xDC00 + (n - 0x10000) % 0x400)

def escapeChar (ascii : Bool) (c : Char) : List Char :=
  if c = '"' then ['\\', '"']
  else if c = '\\' then ['\\', '\\']
  else if c = '\n' then ['\\', 'n']
  else if c = '\r' then ['\\', 'r']
  else if c = '\t' then ['\\', 't']
  else if c = '\x08' then ['\\', 'b']
  else if c = '\x0c' then ['\\', 'f']
  else if c.toNat < 0x20 then unitEscape c.toNat
  else if ascii && 0x7f ≤ c.toNat then asciiEscape c
  else [c]

/-- A string between double quotes. -/
def quoted (ascii : Bool) (s : String) : String :=
  String.ofList ('"' :: s.toList.flatMap (escapeChar ascii) ++ ['"'])

/-! ### Styles -/

/-- How JSON is laid out. -/
structure Style where
  itemSeparator : String
  keySeparator : String
  /-- Spaces a level; `none` puts everything on one line. -/
  indent : Option Nat := none
  /-- Escape everything beyond ASCII. -/
  ascii : Bool := false
  sortKeys : Bool := false
  /-- Write values that are not JSON as strings of their label. -/
  labelOthers : Bool := false

/-- The form of diagnostics: no blanks, text as it is. -/
def Style.compact : Style := { itemSeparator := ",", keySeparator := ":" }

/-- The form that does not depend on the order of keys. -/
def Style.canonical : Style :=
  { itemSeparator := ", ", keySeparator := ": ", ascii := true, sortKeys := true,
    labelOthers := true }

/-- The form of reports; without an indentation everything is on one line. -/
def Style.report (indent : Option Nat) : Style :=
  { itemSeparator := if indent.isSome then "," else ", ", keySeparator := ": ", indent := indent,
    labelOthers := true }

/-! ### Keys -/

/-- The text of a key: a string, or the name of a simple value. -/
def keyText : Value → Except Fault String
  | .str s => .ok s
  | .null => .ok "null"
  | .bool b => .ok (if b then "true" else "false")
  | .int n => intText n
  | .float x => .ok (x.render .json)
  | v => .error (.unsuitable ("keys must be str, int, float, bool or None, not " ++ v.typeName))

/-! ### Values -/

/-- Line break and indentation before an element at a depth. -/
def Style.breakAt (style : Style) (depth : Nat) : String :=
  match style.indent with
  | some width => "\n" ++ String.ofList (List.replicate (width * depth) ' ')
  | none => ""

/-- Texts of elements between brackets. -/
def Style.enclose (style : Style) (depth : Nat) (opening closing : String) (texts : List String) :
    String :=
  if texts.isEmpty then opening ++ closing
  else
    let inner := style.breakAt (depth + 1)
    opening ++ inner ++ (style.itemSeparator ++ inner).intercalate texts
      ++ style.breakAt depth ++ closing

/-- One entry: the text of the key, then that of the value. -/
def entryText (style : Style) (entry : Value × Except Fault String) : Except Fault String := do
  let key ← keyText entry.1
  let text ← entry.2
  return quoted style.ascii key ++ style.keySeparator ++ text

mutual

/-- The text of a value at a depth of nesting. -/
def writeAt (style : Style) (depth : Nat) : Value → Except Fault String
  | .null => .ok "null"
  | .bool b => .ok (if b then "true" else "false")
  | .int n => intText n
  | .float x => .ok (x.render .json)
  | .str s => .ok (quoted style.ascii s)
  | .array _ _ items => do
    return style.enclose depth "[" "]" (← writeItems style (depth + 1) items)
  | .object _ .plain entries => do
    let texts := writeEntries style (depth + 1) entries
    let ordered ← if style.sortKeys then Value.sortEntries texts else .ok texts
    return style.enclose depth "\x7b" "\x7d" (← ordered.mapM (entryText style))
  | v =>
    if style.labelOthers then v.label.map (quoted style.ascii)
    else .error (.unsuitable ("Object of type " ++ v.typeName ++ " is not JSON serializable"))

def writeItems (style : Style) (depth : Nat) : List Value → Except Fault (List String)
  | [] => .ok []
  | v :: rest => do
    let text ← writeAt style depth v
    return text :: (← writeItems style depth rest)

/-- The keys with the texts of their values, in the order of the entries. -/
def writeEntries (style : Style) (depth : Nat) : Entries → List (Value × Except Fault String)
  | [] => []
  | (k, v) :: rest => (k, writeAt style depth v) :: writeEntries style depth rest

end

/-- The text of a value in a style. -/
def write (style : Style) (v : Value) : Except Fault String := writeAt style 0 v

end Json

end Attest

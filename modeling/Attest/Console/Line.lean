import Attest.Text.CharClass

/-!
# Lines of a console

How wide texts are on a console, and what becomes of tabs and control characters.

## Main definitions

* `cellWidth` — the number of columns of a text
* `consoleLines` — the lines in which a text is shown
-/

namespace Attest

/-- Control characters take no column, as do marks over other characters. -/
def charWidth (c : Char) : Nat :=
  if c < ' ' || ('\x7F' ≤ c && c < '\xA0') || Boundaries.combining.contains c then 0
  else if Boundaries.wide.contains c then 2
  else 1

def cellWidth (cs : List Char) : Nat := (cs.map charWidth).foldl (· + ·) 0

/-- Bells, backspaces, vertical tabs, form feeds and carriage returns are not shown. -/
def isDropped (c : Char) : Bool := [7, 8, 11, 12, 13].contains c.toNat

/-- The distance of tab stops. -/
def tabSize : Nat := 8

/-- A line from a column on, with spaces up to the next stop for every tab. -/
def expandTabs (column : Nat) : List Char → List Char
  | [] => []
  | c :: rest =>
    if c == '\t' then
      let next := (column / tabSize + 1) * tabSize
      List.replicate (next - column) ' ' ++ expandTabs next rest
    else c :: expandTabs (column + charWidth c) rest

/-- The pieces of a text between line feeds. -/
def splitLines : List Char → List (List Char)
  | [] => [[]]
  | '\n' :: rest => [] :: splitLines rest
  | c :: rest =>
    match splitLines rest with
    | line :: lines => (c :: line) :: lines
    | [] => [[c]]

/-- The lines in which a text is shown. -/
def consoleLines (cs : List Char) : List (List Char) :=
  (splitLines (cs.filter (!isDropped ·))).map (expandTabs 0)

end Attest

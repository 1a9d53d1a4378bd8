import Attest.Console.Basic
import Attest.Console.Line

/-!
# Tables

Tables with a title, a row of heads below a heavy rule, and a frame.

## Main definitions

* `Table.lines` — the table in lines
-/

namespace Attest

namespace Table

/-- The lines of a cell. -/
def cellLines (cell : String) : List (List Char) := consoleLines cell.toList

def greatest (ns : List Nat) : Nat := ns.foldl max 0

def cellSize (cell : String) : Nat := greatest ((cellLines cell).map cellWidth)

/-- The widths of the columns. -/
def widths (t : Table) : List Nat :=
  t.heads.zipIdx.map fun (head, i) =>
    greatest (cellSize head :: t.rows.map fun row => cellSize (row.getD i ""))

def fill (width : Nat) (cs : List Char) : List Char :=
  cs ++ List.replicate (width - cellWidth cs) ' '

/-- The characters of a rule: its ends, its line, and where it meets the lines between columns. -/
structure Rule where
  left : Char
  line : Char
  cross : Char
  right : Char

def ruleLine (r : Rule) (widths : List Nat) : String :=
  let parts := widths.map fun w => String.ofList (List.replicate (w + 2) r.line)
  String.singleton r.left ++ (String.singleton r.cross).intercalate parts
    ++ String.singleton r.right

/-- A row in as many lines as its highest cell. -/
def rowLines (bar : String) (widths : List Nat) (row : List String) : List String :=
  let cells := row.map cellLines
  let height := greatest (cells.map List.length)
  (List.range height).map fun i =>
    let parts := (widths.zip cells).map fun (w, cell) =>
      " " ++ String.ofList (fill w (cell.getD i [])) ++ " "
    bar ++ bar.intercalate parts ++ bar

/-- A text in the middle of a width, with spaces on both sides. -/
def centred (width : Nat) (cs : List Char) : List Char :=
  fill width (List.replicate ((width - cellWidth cs) / 2) ' ' ++ cs)

def lines (t : Table) : List String :=
  let ws := t.widths
  let total := (ws.map (· + 3)).foldl (· + ·) 1
  (cellLines t.title).map (fun line => String.ofList (centred total line))
    ++ [ruleLine ⟨'┏', '━', '┳', '┓'⟩ ws]
    ++ rowLines "┃" ws t.heads
    ++ [ruleLine ⟨'┡', '━', '╇', '┩'⟩ ws]
    ++ t.rows.flatMap (rowLines "│" ws)
    ++ [ruleLine ⟨'└', '─', '┴', '┘'⟩ ws]

end Table

end Attest

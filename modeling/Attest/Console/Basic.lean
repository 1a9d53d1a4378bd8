import Attest.Fault
import Attest.Value.Basic

/-!
# Consoles

How something looks on a console is up to a package. What is printed comes as lines, all at once, or
a fault comes in its place.

## Main definitions

* `Table` — a title, heads, and rows of cells
* `Console` — a package for printing
* `styled` — texts with a style
-/

namespace Attest

/-- A table. Its texts may hold markup and several lines. -/
structure Table where
  title : String
  heads : List String
  rows : List (List String)
  deriving Repr, Inhabited

/-- A package for printing: the lines that something is printed in. -/
structure Console where
  /-- A text in which markup is looked for. -/
  markup : String → Except Fault (List String)
  /-- A text in which none is looked for. -/
  text : String → Except Fault (List String)
  /-- Data, as JSON in several lines. -/
  json : Value → Except Fault (List String)
  table : Table → Except Fault (List String)

/-- All texts of a table. -/
def Table.texts (t : Table) : List String := t.title :: t.heads ++ t.rows.flatten

/-- A text between the tags of a style. -/
def styled (style text : String) : String :=
  "[" ++ (style ++ ("]" ++ (text ++ ("[/" ++ (style ++ "]")))))

end Attest

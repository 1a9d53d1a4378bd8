/-!
# Locations

Paths of files, written with slashes. Repeated slashes and dots for the same directory have no
meaning; two dots stay, because what they lead to depends on the directory before them.

## Main definitions

* `Location`, `Location.ofText`, `Location.text` — a path and its forms
* `Location.join` — a path below another one
-/

namespace Attest

/-- The path of a file. -/
structure Location where
  /-- The slashes at the start: two of them are kept apart, more count as one. -/
  root : String
  parts : List String
  deriving DecidableEq, Repr, Inhabited

namespace Location

/-- The pieces of a text between slashes, without those that have no meaning. -/
def partsOf (s : String) : List String :=
  ((s.toList.splitOn '/').map String.ofList).filter fun p => p ≠ "" && p ≠ "."

def rootOf (cs : List Char) : String :=
  match cs with
  | '/' :: '/' :: '/' :: _ => "/"
  | '/' :: '/' :: _ => "//"
  | '/' :: _ => "/"
  | _ => ""

def ofText (s : String) : Location := ⟨rootOf s.toList, partsOf s⟩

def isAbsolute (l : Location) : Bool := !l.root.isEmpty

/-- The path in its shortest form; the empty one is a dot. -/
def text (l : Location) : String :=
  let s := l.root ++ "/".intercalate l.parts
  if s.isEmpty then "." else s

/-- A path below another one; an absolute path stands for itself. -/
def join (base l : Location) : Location :=
  if l.isAbsolute then l else ⟨base.root, base.parts ++ l.parts⟩

/-- The directory of a path. -/
def parent (l : Location) : Location := { l with parts := l.parts.dropLast }

end Location

end Attest

import Attest.Fault
import Attest.Files.Location
import Attest.Text.Encoding

/-!
# File trees

The files below a working directory, as far as a run needs them. What lies outside is not there to
be read; a file that is written outside leaves the tree as it is.

## Main definitions

* `FileNode` — a file or a directory
* `FileNode.find`, `FileNode.read` — what a path leads to, and the contents of a file
* `FileNode.makeDirectories`, `FileNode.write`, `FileNode.save` — changes
* `FileNode.files` — all files with their paths
-/

namespace Attest

/-- A file or a directory. -/
inductive FileNode where
  | file (data : List UInt8)
  | directory (entries : List (String × FileNode))
  deriving Repr, Inhabited

namespace FileNode

def empty : FileNode := .directory []

/-- The greatest number of bytes in a name. -/
def nameBound : Nat := 255

/-- Follow names from a directory; the directories above it are given, the nearest first. -/
def walk (above : List FileNode) (here : FileNode) : List String → Except FileTrouble FileNode
  | [] => .ok here
  | name :: rest =>
    match here with
    | .file _ => .error .notADirectory
    | .directory entries =>
      if name = ".." then
        match above with
        | up :: above => walk above up rest
        | [] => .error .notFound
      else if nameBound < name.utf8ByteSize then .error .nameTooLong
      else match entries.lookup name with
        | some next => walk (here :: above) next rest
        | none => .error .notFound

/-- What a path leads to. Only paths that are not absolute lead into the tree. -/
def find (root : FileNode) (l : Location) : Except FileTrouble FileNode :=
  if l.isAbsolute then .error .notFound else walk [] root l.parts

/-- Bytes that are no text are half pairs of these in names. -/
def isNameByte (c : Char) : Bool := (surrogate? c).any fun n => 0xDC80 ≤ n && n < 0xDD00

/-- Whether a path can be put to the system at all. -/
def isNameable (l : Location) : Bool :=
  !l.text.toList.contains '\x00' && (Encoding.encodeError? isNameByte l.text).isNone

/-- What is wrong with a path that cannot be put to the system. -/
def nameFault (l : Location) (nullText : String) : Fault :=
  match Encoding.encodeError? isNameByte l.text with
  | some e => .unencodable e.message
  | none => .outOfRange nullText

def exists? (root : FileNode) (l : Location) : Except Fault Bool :=
  if !isNameable l then .ok false
  else match find root l with
    | .ok _ => .ok true
    | .error .nameTooLong => .error (.file .nameTooLong l.text)
    | .error _ => .ok false

/-- Whether a path leads somewhere as it is written: behind a file nothing follows, not even a
slash. -/
def reaches (root : FileNode) (path : String) : Bool :=
  !path.isEmpty && match find root (.ofText path) with
    | .ok (.directory _) => true
    | .ok (.file _) => !path.endsWith "/" && !path.endsWith "/."
    | .error _ => false

/-- The contents of a file. -/
def read (root : FileNode) (l : Location) : Except Fault (List UInt8) :=
  if !isNameable l then .error (nameFault l "embedded null byte")
  else match find root l with
    | .ok (.file data) => .ok data
    | .ok (.directory _) => .error (.file .isADirectory l.text)
    | .error trouble => .error (.file trouble l.text)

/-! ### Changes -/

/-- The entries with another node under a name, in its old place or at the end. -/
def putEntry (name : String) (node : FileNode) :
    List (String × FileNode) → List (String × FileNode)
  | [] => [(name, node)]
  | (other, old) :: rest =>
    if other = name then (other, node) :: rest else (other, old) :: putEntry name node rest

/-- The tree with the directories on the way to a path, where names do not lead upwards. -/
def makeDirectoriesFrom (here : FileNode) : List String → Except FileTrouble FileNode
  | [] => match here with
    | .directory _ => .ok here
    | .file _ => .error .alreadyExists
  | name :: rest =>
    match here with
    | .file _ => .error .notADirectory
    | .directory entries =>
      if nameBound < name.utf8ByteSize then .error .nameTooLong
      else do
        let next ← makeDirectoriesFrom ((entries.lookup name).getD empty) rest
        return .directory (putEntry name next entries)

/-- Write a file into a directory that is there. -/
def writeFrom (here : FileNode) (data : List UInt8) : List String → Except FileTrouble FileNode
  | [] => match here with
    | .directory _ => .error .isADirectory
    | .file _ => .ok (.file data)
  | [name] =>
    match here with
    | .file _ => .error .notADirectory
    | .directory entries =>
      if nameBound < name.utf8ByteSize then .error .nameTooLong
      else match entries.lookup name with
        | some (.directory _) => .error .isADirectory
        | _ => .ok (.directory (putEntry name (.file data) entries))
  | name :: rest =>
    match here with
    | .file _ => .error .notADirectory
    | .directory entries =>
      match entries.lookup name with
      | some next => do
        return .directory (putEntry name (← writeFrom next data rest) entries)
      | none => .error .notFound

/-- Names without the detours of two dots; `none` if they lead above the first directory. -/
def straighten? (names : List String) : Option (List String) :=
  names.foldlM (fun kept name =>
    if name = ".." then if kept.isEmpty then none else some kept.dropLast
    else some (kept ++ [name])) []

/-- The names by which a path leads through the tree; `none` if it leads out of it. -/
def inside? (l : Location) : Option (List String) :=
  if l.isAbsolute then none else straighten? l.parts

/-- Make the directories on the way along names, from the one that the kept names lead to. A detour
goes through a directory, which is made too. -/
def makeAlong (root : FileNode) (kept : List String) : List String → Except FileTrouble FileNode
  | [] => makeDirectoriesFrom root kept
  | name :: rest =>
    if name = ".." then
      match makeDirectoriesFrom root kept with
      | .ok root => makeAlong root kept.dropLast rest
      | .error .alreadyExists => .error .notADirectory
      | .error trouble => .error trouble
    else makeAlong root (kept ++ [name]) rest

def makeDirectories (root : FileNode) (l : Location) : Except Fault FileNode :=
  if !isNameable l then .error (nameFault l "embedded null character in path")
  else match inside? l with
    | none => .ok root
    | some _ =>
      match makeAlong root [] l.parts with
      | .ok node => .ok node
      | .error trouble => .error (.file trouble l.text)

def write (root : FileNode) (l : Location) (data : List UInt8) : Except Fault FileNode :=
  if !isNameable l then .error (nameFault l "embedded null byte")
  else match inside? l with
    | none => .ok root
    | some names =>
      match writeFrom root data names with
      | .ok node => .ok node
      | .error trouble => .error (.file trouble l.text)

/-- Write a file; the directories on the way are made if they are not there. -/
def save (root : FileNode) (l : Location) (data : List UInt8) : Except Fault FileNode := do
  (← root.makeDirectories l.parent).write l data

/-! ### Listing -/

mutual

/-- The files below a directory, with their paths. -/
def filesBelow (path : List String) : FileNode → List (List String × List UInt8)
  | .file data => [(path, data)]
  | .directory entries => filesAmong path entries

def filesAmong (path : List String) :
    List (String × FileNode) → List (List String × List UInt8)
  | [] => []
  | (name, node) :: rest => filesBelow (path ++ [name]) node ++ filesAmong path rest

end

/-- All files, with their paths. -/
def files (root : FileNode) : List (String × List UInt8) :=
  (filesBelow [] root).map fun (path, data) => ("/".intercalate path, data)

/-- The tree with the given files; directories are made as needed. -/
def ofFiles (entries : List (String × List UInt8)) : FileNode :=
  entries.foldl (fun root (path, data) =>
    (root.save (.ofText path) data).toOption.getD root) empty

end FileNode

end Attest

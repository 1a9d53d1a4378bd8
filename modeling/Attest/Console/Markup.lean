import Attest.Console.Emoji
import Attest.Fault

/-!
# Console markup

Texts for a console may hold tags in square brackets that switch styles on and off. Without colours
the tags are only taken out; a tag that switches off what is not on is an error. Codes of emoji are
looked for between the tags.

## Main definitions

* `Markup.Piece`, `Markup.splitMarkup` — a text as texts and tags
* `Markup.plainText` — a text without its tags
-/

namespace Attest.Markup

/-- A text to be shown, or the inside of a tag. -/
inductive Piece where
  | text (cs : List Char)
  | tag (inside : List Char)
  deriving DecidableEq, Repr

/-- The characters that the inside of a tag can begin with. -/
def startsTag (c : Char) : Bool := ('a' ≤ c && c ≤ 'z') || c == '#' || c == '/' || c == '@'

/-- The tag at the front of a text, and the rest. No tag holds an opening bracket. -/
def readTag? : List Char → Option (List Char × List Char)
  | '[' :: c :: rest =>
    let tail := rest.takeWhile fun x => x ≠ ']' && x ≠ '['
    match rest.drop tail.length with
    | ']' :: after => if startsTag c then some (c :: tail, after) else none
    | _ => none
  | _ => none

/-- A tag in a text, with what is before and after it. -/
structure Found where
  before : List Char
  /-- The number of backslashes right in front of the tag. -/
  slashes : Nat
  inside : List Char
  after : List Char
  deriving DecidableEq, Repr

/-- The first tag of a text. -/
def firstTag? : List Char → Option Found
  | [] => none
  | c :: rest =>
    let slashes := ((c :: rest).takeWhile (· == '\\')).length
    match readTag? ((c :: rest).drop slashes) with
    | some (inside, after) => some ⟨[], slashes, inside, after⟩
    | none => (firstTag? rest).map fun found => { found with before := c :: found.before }

/-- In front of a bracket that begins no tag, a backslash is not shown. -/
def unescape : List Char → List Char
  | '\\' :: '[' :: rest => '[' :: unescape rest
  | c :: rest => c :: unescape rest
  | [] => []

/-- The pieces that a tag comes to: two backslashes in front of it stand for one, and a single one
makes the tag a text. -/
def Found.pieces (found : Found) : List Piece :=
  [.text (unescape found.before), .text (List.replicate (found.slashes / 2) '\\'),
    if found.slashes % 2 = 0 then .tag found.inside else .text ('[' :: found.inside ++ [']'])]

/-- A text as texts and tags. The fuel is the number of characters. -/
def splitMarkup : Nat → List Char → List Piece
  | 0, _ => []
  | fuel + 1, cs =>
    match firstTag? cs with
    | some found => found.pieces ++ splitMarkup fuel found.after
    | none => [.text (unescape cs)]

/-- The name of a style: what stands before an equals sign, without blanks around it. -/
def nameOf (inside : List Char) : String :=
  let name := (inside.takeWhile (· ≠ '=')).dropWhile Boundaries.blank.contains
  String.ofList (name.reverse.dropWhile Boundaries.blank.contains).reverse

/-- Take the last occurrence of a style out of those that are on, the newest first. A tag without a
name switches off the newest one. -/
def switchOff? (t : Terminal) (name : String) (styles : List String) : Option (List String) :=
  if name.isEmpty then
    match styles with
    | _ :: rest => some rest
    | [] => none
  else if styles.contains (t.styleName name) then some (styles.erase (t.styleName name)) else none

/-- What is shown of pieces, when some styles are on. -/
def showPieces (t : Terminal) : List String → List Piece → Except Fault (List Char)
  | _, [] => .ok []
  | styles, .text cs :: rest => do return t.replaceEmoji cs ++ (← showPieces t styles rest)
  | styles, .tag ('/' :: inside) :: rest =>
    match switchOff? t (nameOf inside) styles with
    | some styles => showPieces t styles rest
    | none => .error (.markup
        ("closing tag '[/" ++ String.ofList inside ++ "]' doesn't match any open tag"))
  | styles, .tag inside :: rest => showPieces t (t.styleName (nameOf inside) :: styles) rest

/-- A text without its tags. -/
def plainText (t : Terminal) (cs : List Char) : Except Fault (List Char) :=
  showPieces t [] (splitMarkup (cs.length + 1) cs)

end Attest.Markup

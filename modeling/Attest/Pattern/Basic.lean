import Attest.Text.CharClass
import Attest.Text.LetterCase
import Attest.Text.Quoted

/-!
# Patterns

Regular expressions with groups, back references, assertions, conditionals, atomic groups and
greedy, lazy and possessive repetition.

## Main definitions

* `Pattern` — the tree of a pattern
* `Pattern.Modes` — the letters that change its meaning, such as `i` for ignoring case
* `Pattern.width` — the least and greatest number of characters that a pattern can match
* `Pattern.Error` — why a text is no pattern
-/

namespace Attest

/-- A set of mode letters: `i` ignores case, `m` lets line ends anchor, `s` lets the dot match line
ends, `x` ignores blanks in the pattern, `a` restricts classes to ASCII, `u` lifts that. -/
abbrev Modes := List Char

namespace Modes

def union (a b : Modes) : Modes := a ++ b.filter (!a.contains ·)

def without (a b : Modes) : Modes := a.filter (!b.contains ·)

/-- The letters of which at most one can be in force. -/
def alphabets : Modes := ['a', 'L', 'u']

/-- The modes inside a group that turns some on and some off. -/
def change (modes on off : Modes) : Modes :=
  let base := if on.any alphabets.contains then modes.without alphabets else modes
  (base.union on).without off

end Modes

/-- The classes that have a name. -/
inductive NamedClass where
  | digit
  | space
  | word
  deriving DecidableEq, Repr, Inhabited

/-- A member of a bracketed set; characters are given by their code points. -/
inductive ClassItem where
  | char (code : Nat)
  | range (low high : Nat)
  | named (name : NamedClass) (negated : Bool)
  deriving DecidableEq, Repr, Inhabited

/-- Places in a text. -/
inductive Anchor where
  | lineStart
  | lineEnd
  | textStart
  | textEnd
  | wordEdge (negated : Bool)
  deriving DecidableEq, Repr, Inhabited

/-- How many repetitions are tried first, and whether fewer may be taken later. -/
inductive Greed where
  | greedy
  | lazy
  | possessive
  deriving DecidableEq, Repr, Inhabited

/-- The tree of a pattern. -/
inductive Pattern where
  | oneOf (negated : Bool) (items : List ClassItem)
  | anyChar
  | anchor (place : Anchor)
  | sequence (parts : List Pattern)
  | choice (branches : List Pattern)
  | iterate (greed : Greed) (least : Nat) (most : Option Nat) (body : Pattern)
  | group (index : Option Nat) (on off : Modes) (body : Pattern)
  | atomic (body : Pattern)
  | look (ahead negated : Bool) (body : Pattern)
  | backReference (index : Nat)
  | conditional (index : Nat) (yes no : Pattern)
  deriving Repr, Inhabited

namespace Pattern

/-! ### Errors -/

/-- Why a text is no pattern. -/
inductive Error where
  /-- A problem at a position of the text. -/
  | place (message : String) (position : Nat)
  /-- A problem of the pattern as a whole. -/
  | whole (message : String)
  | repetitionTooLarge
  | tooManyDigits (count : Nat)
  | incompatibleAlphabets
  deriving DecidableEq, Repr, Inhabited

/-- The error as a message; the line is given only for texts of several lines. -/
def Error.message (source : List Char) : Error → String
  | .place message position =>
    let before := source.take position
    let line := before.count '\n' + 1
    let column := (before.reverse.takeWhile (· ≠ '\n')).length + 1
    s!"{message} at position {position}"
      ++ (if source.contains '\n' then
          s!" (line {line}, column {column})"
        else "")
  | .whole message => message
  | .repetitionTooLarge => "the repetition number is too large"
  | .tooManyDigits count => s!"a repetition number has {count} digits"
  | .incompatibleAlphabets => "ASCII and UNICODE flags are incompatible"

/-! ### Widths -/

/-- Widths are not counted beyond this bound. -/
def widthBound : Nat := Nat.pow 2 64

/-- The least and the greatest number of characters. -/
abbrev Width := Nat × Nat

private def capped (w : Width) : Width := (min w.1 widthBound, min w.2 widthBound)

mutual

/-- The width of a pattern, given the widths of the groups it refers to. -/
def width (groups : Nat → Width) : Pattern → Width
  | .oneOf .. | .anyChar => (1, 1)
  | .anchor _ | .look .. => (0, 0)
  | .sequence parts => capped (sequenceWidth groups parts)
  | .choice branches => capped (choiceWidth groups branches)
  | .iterate _ least most body =>
    let (low, high) := width groups body
    capped (low * least,
      match most with
      | some n => high * n
      | none => if high = 0 then 0 else widthBound)
  | .group _ _ _ body | .atomic body => width groups body
  | .backReference index => groups index
  | .conditional _ yes no =>
    let (a, b) := width groups yes
    let (c, d) := width groups no
    (min a c, max b d)

def sequenceWidth (groups : Nat → Width) : List Pattern → Width
  | [] => (0, 0)
  | p :: rest =>
    let (a, b) := width groups p
    let (c, d) := sequenceWidth groups rest
    (a + c, b + d)

def choiceWidth (groups : Nat → Width) : List Pattern → Width
  | [] => (widthBound, 0)
  | p :: rest =>
    let (a, b) := width groups p
    let (c, d) := choiceWidth groups rest
    (min a c, max b d)

end

end Pattern

end Attest

import Attest.Text.LetterCase
import Attest.Text.CharClass

/-!
# Emoji codes

A console shows a name between colons as the emoji of that name, if there is one. Which names there
are is a matter of the console, and so is what the names of styles mean.

## Main definitions

* `Terminal` — what depends on the console
* `Terminal.replaceEmoji` — a text with emoji in the place of their codes
-/

namespace Attest

/-- A text in small letters. -/
def lowerText (s : String) : String := String.ofList (s.toList.map lowerCase)

/-- What depends on the console. -/
structure Terminal where
  /-- The emoji of a name. -/
  emoji : String → Option String := fun _ => none
  /-- The name of a style in its usual form. -/
  styleName : String → String := lowerText

namespace Terminal

/-- What stands between a colon at the front of a text and the next one, and the rest. -/
def readCode? : List Char → Option (List Char × List Char)
  | ':' :: rest =>
    let inside := rest.takeWhile fun c => c ≠ ':' && !Boundaries.blank.contains c
    match rest.drop inside.length with
    | ':' :: after => some (inside, after)
    | _ => none
  | _ => none

/-- A code as a name and the selector of a variant: behind a dash, it may be said whether a coloured
or a plain form is meant. -/
def variantOf (inside : List Char) : String × String :=
  let ending (suffix : String) := suffix.toList.isSuffixOf inside
  let name (suffix : String) := String.ofList (inside.take (inside.length - suffix.length))
  if ending "-emoji" then (name "-emoji", "\uFE0F")
  else if ending "-text" then (name "-text", "\uFE0E")
  else (String.ofList inside, "")

/-- What a code is shown as. -/
def emojiOf? (t : Terminal) (inside : List Char) : Option (List Char) :=
  let (name, selector) := variantOf inside
  (t.emoji (lowerText name)).map fun emoji => (emoji ++ selector).toList

/-- A text with emoji in the place of their codes. A code that means nothing stays, and its colons
belong to no other code. The fuel is the number of characters. -/
def replaceFrom (t : Terminal) : Nat → List Char → List Char
  | 0, cs => cs
  | _, [] => []
  | fuel + 1, c :: rest =>
    match readCode? (c :: rest) with
    | some (inside, after) =>
      (t.emojiOf? inside).getD (':' :: inside ++ [':']) ++ replaceFrom t fuel after
    | none => c :: replaceFrom t fuel rest

def replaceEmoji (t : Terminal) (cs : List Char) : List Char := t.replaceFrom cs.length cs

end Terminal

end Attest

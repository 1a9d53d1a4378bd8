/-!
# Lone surrogates

The number of a surrogate may be written in the place of a character, in an escape or in bytes. A
text that came of that has a half of a pair in it, which stands for no character. Half pairs are
kept: the last characters of all, which are for private use, stand for them.

## Main definitions

* `charOf` — the character of a code point, and for a surrogate the one that stands for it
* `surrogate?`, `codePoint` — the surrogate that a character stands for, and what it is taken for
* `Unbroken` — texts without half pairs
-/

namespace Attest

/-- Where the surrogates begin. -/
def firstSurrogate : Nat := 0xD800

/-- Where the characters that stand for surrogates begin. -/
def firstStandIn : Nat := 0x10F800

/-- The character of a code point. -/
def charOf (n : Nat) : Char :=
  if h : n.isValidChar then Char.ofNatAux n h else Char.ofNat (n - firstSurrogate + firstStandIn)

/-- The surrogate that a character stands for. -/
def surrogate? (c : Char) : Option Nat :=
  if firstStandIn ≤ c.toNat then some (c.toNat - firstStandIn + firstSurrogate) else none

def isLone (c : Char) : Bool := (surrogate? c).isSome

/-- The code point that a character is taken for. -/
def codePoint (c : Char) : Nat := (surrogate? c).getD c.toNat

/-- A text without half pairs. -/
def Unbroken (text : String) : Prop := ∀ c ∈ text.toList, isLone c = false

instance (text : String) : Decidable (Unbroken text) :=
  List.decidableBAll (fun c => isLone c = false) text.toList

end Attest

import Attest.Text.CharClass
import Attest.Text.Surrogate

/-!
# Quoted text

Strings and byte strings as diagnostics show them. A text is put between single quotes, or between
double quotes if it holds a single quote and no double one; backslashes, the chosen quote and what
is not printable are escaped.

## Main definitions

* `hexDigits` — a number in base 16 with a fixed count of digits
* `quoteText`, `quoteBytes` — the quoted forms
-/

namespace Attest

/-- The last `count` digits of a number in base 16. -/
def hexDigits : Nat → Nat → List Char
  | 0, _ => []
  | count + 1, n => hexDigits count (n / 16) ++ [Nat.digitChar (n % 16)]

/-- The shortest of the three escapes that can hold the character. -/
def numericEscape (c : Char) : List Char :=
  let n := codePoint c
  if n < 0x100 then '\\' :: 'x' :: hexDigits 2 n
  else if n < 0x10000 then '\\' :: 'u' :: hexDigits 4 n
  else '\\' :: 'U' :: hexDigits 8 n

def quotedChar (quote c : Char) : List Char :=
  if c = quote ∨ c = '\\' then ['\\', c]
  else if c = '\t' then ['\\', 't']
  else if c = '\n' then ['\\', 'n']
  else if c = '\r' then ['\\', 'r']
  else if Boundaries.printable.contains c then [c]
  else numericEscape c

/-- Double quotes are taken only for a text with a single quote and no double quote. -/
def chosenQuote (cs : List Char) : Char :=
  if cs.contains '\'' && !cs.contains '"' then '"' else '\''

def quoteChars (cs : List Char) : List Char :=
  let quote := chosenQuote cs
  quote :: cs.flatMap (quotedChar quote) ++ [quote]

/-- A text in quotes. -/
def quoteText (s : String) : String := String.ofList (quoteChars s.toList)

def quotedByte (quote : Char) (b : UInt8) : List Char :=
  let c := Char.ofNat b.toNat
  if c = quote ∨ c = '\\' then ['\\', c]
  else if c = '\t' then ['\\', 't']
  else if c = '\n' then ['\\', 'n']
  else if c = '\r' then ['\\', 'r']
  else if 0x20 ≤ b ∧ b < 0x7f then [c]
  else '\\' :: 'x' :: hexDigits 2 b.toNat

/-- A byte string in quotes, with the mark of byte strings in front. -/
def quoteBytes (data : List UInt8) : String :=
  let quote := chosenQuote (data.map fun b => Char.ofNat b.toNat)
  String.ofList ('b' :: quote :: data.flatMap (quotedByte quote) ++ [quote])

end Attest

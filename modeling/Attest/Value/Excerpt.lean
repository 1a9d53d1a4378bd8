import Attest.Json.Writer

/-!
# Excerpts

Values as steps, reasons and candidate lists show them: compact JSON, or the diagnostic text of
what is not JSON, cut to a greatest length.

## Main definitions

* `cutText` — a text cut to a length, with an ellipsis
* `Value.excerpt` — the shown form of a value
-/

namespace Attest

/-- The characters before a position; a negative position counts from the end. -/
def takeBefore (position : Int) (cs : List Char) : List Char :=
  if 0 ≤ position then cs.take position.toNat else cs.take (cs.length - (-position).toNat)

/-- A text of more than `limit` characters ends in an ellipsis, which is counted. -/
def cutText (limit : Int) (s : String) : String :=
  if limit < (s.length : Int) then String.ofList (takeBefore (limit - 3) s.toList) ++ "..." else s

namespace Value

/-- The whole text of a value: compact JSON if it can be written so. -/
def rendered (v : Value) : Except Fault String :=
  match Json.write .compact v with
  | .ok text => .ok text
  | .error _ => v.display

/-- The text of a value, cut to a greatest length. -/
def excerpt (limit : Int) (v : Value) : Except Fault String := v.rendered.map (cutText limit)

/-- The greatest length where none is set. -/
def defaultLimit : Int := 100

end Value

end Attest

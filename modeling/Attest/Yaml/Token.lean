/-!
# Tokens

The pieces that a YAML text is read into. Blocks have no brackets of their own, so tokens
for their starts and ends are made out of the indentation.

## Main definitions

* `Token` — the pieces
* `TagName` — a tag as it is written
-/

namespace Attest.Yaml

/-- A tag as it is written: a handle that stands for a beginning, or none, and the rest. -/
structure TagName where
  handle : Option String
  suffix : String
  deriving DecidableEq, Repr, Inhabited

/-- What a line that starts with a percent sign says. -/
inductive Directive where
  | version (major : Nat)
  | tagHandle (handle beginning : String)
  | unknown
  deriving DecidableEq, Repr, Inhabited

inductive Token where
  | directive (d : Directive)
  | documentStart
  | documentEnd
  | blockSequenceStart
  | blockMappingStart
  | blockEnd
  | flowSequenceStart
  | flowSequenceEnd
  | flowMappingStart
  | flowMappingEnd
  | blockEntry
  | flowEntry
  | key
  | value
  | alias_ (name : String)
  | anchor (name : String)
  | tag (name : TagName)
  | scalar (text : String) (plain : Bool)
  | streamEnd
  deriving DecidableEq, Repr, Inhabited

end Attest.Yaml

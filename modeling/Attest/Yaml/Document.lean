import Attest.Text.Encoding
import Attest.Yaml.Basic
import Attest.Yaml.Node.Assembly
import Attest.Yaml.Node.Value
import Attest.Yaml.Token.Layout

/-!
# YAML texts

The value of the document that a text holds. This is a package for YAML whose data are finite: an
alias cannot be inside of its own anchor.

## Main definitions

* `read` — the value of a text
* `loader` — the package
-/

namespace Attest.Yaml

/-- The characters that a text may hold. -/
def isAdmissible (c : Char) : Bool :=
  c == '\t' || c == '\n' || c == '\r' || (' ' ≤ c && c ≤ '~') || c == '\x85'
    || ('\xA0' ≤ c && c ≤ '\uFFFD') || 0x10000 ≤ c.toNat

/-- The value of a text; an empty one has none. -/
def read (text : List Char) : Except Fault Value := do
  if !text.all isAdmissible then throw .notYaml
  match ← Node.ofTokens (← Token.ofText text) with
  | some node => node.toValue
  | none => return .null

/-- A package for YAML. The line ends of a file are put in their normal form. -/
def loader : YamlLoader
  | .text text => read text.toList
  | .file data =>
    match Encoding.decodeText data with
    | .ok text => read (normalLines text)
    | .error e => .error (.undecodable e.message)

end Attest.Yaml

import Attest.Fault
import Attest.Value.Basic

/-!
# YAML

Which data a text holds is up to a package. It is given a text, or a file that it reads and decodes
as far as it needs to.

## Main definitions

* `YamlSource` — what is read
* `YamlLoader` — a package for YAML
-/

namespace Attest

/-- What YAML is read from. -/
inductive YamlSource where
  | text (text : String)
  /-- The bytes of a file, which is opened as a text in UTF-8. -/
  | file (data : List UInt8)
  deriving DecidableEq, Repr, Inhabited

/-- A package for YAML. A mistake in YAML is the fault that says so, in words of the package; other
faults are not taken for mistakes. -/
abbrev YamlLoader := YamlSource → Except Fault Value

end Attest

import Attest.Json.Reader
import Attest.Text.Encoding

/-!
# Documents

A document as a chain sees it: its root, or the reason why its text could not be read. Malformed
text is thus a condition to report and not a fault.

## Main definitions

* `Document` — a root value, or a problem
* `Document.ofValue`, `ofText`, `ofBytes` — the sources of documents
-/

namespace Attest

/-- A parsed document, shared by a chain and all its branches. -/
structure Document where
  root : Value
  /-- Why the text is no JSON; the root is then null. -/
  problem : Option String := none
  deriving Repr, Inhabited

namespace Document

def isValid (d : Document) : Bool := d.problem.isNone

def ofValue (root : Value) : Document := { root := root }

def ofChars (text : List Char) : Document :=
  match Json.read text with
  | .ok root => { root := root.asDocument }
  | .error e => { root := .null, problem := some (e.message text) }

def ofText (text : String) : Document := ofChars text.toList

/-- Bytes are decoded first, in the encoding that they suggest. -/
def ofBytes (data : List UInt8) : Document :=
  match Encoding.decodeDocument data with
  | .ok text => ofChars text
  | .error e => { root := .null, problem := some e.message }

end Document

end Attest

import Attest.Digest
import Attest.Json.Writer

/-!
# Fingerprints

A short digest that identifies a suite whatever the order of its keys: the first characters of the
SHA-256 of its canonical JSON.

## Main definitions

* `fingerprintText` — what is digested
* `fingerprint` — twelve hexadecimal characters
-/

namespace Attest

/-- The text that is digested: keys sorted, everything beyond ASCII escaped. -/
def fingerprintText (v : Value) : Except Fault String := Json.write .canonical v

/-- The first twelve characters of the digest. -/
def fingerprint (v : Value) : Except Fault String :=
  (fingerprintText v).map fun text =>
    String.ofList ((Digest.hex text.toUTF8.toList).toList.take 12)

end Attest

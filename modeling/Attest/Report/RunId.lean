import Attest.Text.Quoted

/-!
# Names of runs

Every run has a name made of random bytes, in the usual form of such identifiers.

## Main definitions

* `runIdOf` — the name that bytes stand for
-/

namespace Attest

/-- Two hexadecimal digits. -/
def byteText (b : UInt8) : String := String.ofList (hexDigits 2 b.toNat)

/-- The bytes with the marks of a random identifier: version 4, variant 1. -/
def markRandom (bytes : List UInt8) : List UInt8 :=
  bytes.zipIdx.map fun (b, i) =>
    if i = 6 then b % 16 + 0x40 else if i = 8 then b % 64 + 0x80 else b

/-- The name that sixteen bytes stand for. -/
def runIdOf (bytes : List UInt8) : String :=
  let texts := (markRandom bytes).map byteText
  let part := fun (start count : Nat) => String.join ((texts.drop start).take count)
  "-".intercalate [part 0 4, part 4 2, part 6 2, part 8 2, part 10 6]

end Attest

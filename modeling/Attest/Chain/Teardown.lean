import Attest.Chain.Family

/-!
# Teardown

A scope that made several chains closes all of them at its end and then fails once for all those
that were never finalized.

## Main definitions

* `closeEvery` — close every family, and the texts of the failures raised
* `teardown` — the one failure, if there is any
-/

namespace Attest

/-- Close every family; the failures are given in order. -/
def closeEvery : List Family → List Family × List String
  | [] => ([], [])
  | f :: rest =>
    let (f, sent) := f.close
    let (others, failures) := closeEvery rest
    (f :: others, match sent with
      | .error (.failedOutcome outcome) => outcome.text :: failures
      | _ => failures)

/-- What the end of a scope fails with. -/
def teardown (families : List Family) : Option String :=
  let failures := (closeEvery families).2
  if failures.isEmpty then none else some ("\n\n".intercalate failures)

end Attest

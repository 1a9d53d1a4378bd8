/-!
# Outcomes

What a finalized chain hands to its sink: one verdict with the evidence for it.

## Main definitions

* `Outcome` — the verdict, its reason, the trace and the surviving candidates
* `Outcome.text` — the outcome as a diagnostic of several lines
-/

namespace Attest

/-- The terminal verdict on one chain. -/
structure Outcome where
  description : String
  passed : Bool
  /-- One line; empty when the chain passed. -/
  reason : String := ""
  /-- One line a step, the steps of a branch below the step that ran it. -/
  trace : List String := []
  /-- The candidates left at the end, as texts. -/
  candidates : List String := []
  /-- The check of a suite that the chain belongs to. -/
  checkId : Option String := none
  deriving DecidableEq, Repr, Inhabited

namespace Outcome

def icon (passed : Bool) : String := if passed then "✅" else "❌"

/-- The outcome as a diagnostic. A passed one needs no evidence. -/
def text (o : Outcome) : String :=
  if o.passed then "✅ PASS: " ++ o.description
  else
    let indented := o.trace.map ("     " ++ ·)
    "\n".intercalate <|
      ["❌ FAIL: " ++ o.description]
        ++ (if o.reason.isEmpty then [] else ["   Reason: " ++ o.reason])
        ++ (if o.trace.isEmpty then [] else "   Trace:" :: indented)
        ++ ["   Candidates (" ++ toString o.candidates.length ++ "):"]
        ++ o.candidates.map ("     " ++ ·)

end Outcome

end Attest

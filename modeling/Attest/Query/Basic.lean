import Attest.Fault
import Attest.Value.Basic

/-!
# Queries

Which values a query finds is up to a package. All that is asked of it is to make a finder of an
expression, once, and to put the finder to values.

## Main definitions

* `Finder` — what a query finds in a value
* `QueryEngine` — a package for queries
-/

namespace Attest

/-- The values that a query finds in a value, unless the search is interrupted. -/
abbrev Finder := Value → Except Fault (List Value)

/-- Why there is no finder for an expression. -/
inductive QueryTrouble where
  /-- The package says what is wrong with the expression. -/
  | malformed (problem : String)
  /-- The package is interrupted. -/
  | interrupted (fault : Fault)
  deriving DecidableEq, Repr, Inhabited

/-- A package for queries. -/
abbrev QueryEngine := Value → Except QueryTrouble Finder

end Attest

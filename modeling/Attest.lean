import Attest.Chain.Teardown
import Attest.Main
import Attest.Proofs.Chain.Coherence
import Attest.Proofs.Chain.Evaluation
import Attest.Proofs.Chain.Conclusion
import Attest.Proofs.Chain.Exhaustive
import Attest.Proofs.Chain.Rejection
import Attest.Proofs.Chain.Bracket
import Attest.Proofs.Chain.Meaning
import Attest.Proofs.Value.Plain
import Attest.Proofs.Json.Documents
import Attest.Proofs.Path
import Attest.Proofs.Query.Matches
import Attest.Proofs.Step.Affirm
import Attest.Proofs.Step.Operation
import Attest.Proofs.Suite.Accepted
import Attest.Proofs.Suite.Grammar
import Attest.Proofs.Suite.Conformity
import Attest.Proofs.Suite.Totality
import Attest.Proofs.Value.Sorting
import Attest.Proofs.Chain.Interruption
import Attest.Proofs.Chain.Reported
import Attest.Proofs.Chain.Settlement
import Attest.Proofs.Chain.Verdict
import Attest.Proofs.Value.Equivalence
import Attest.Proofs.Suite.Replay
import Attest.Proofs.Suite.Outcomes
import Attest.Proofs.Suite.Fingerprint
import Attest.Proofs.Chain.Indiscernible
import Attest.Proofs.Chain.Candidates
import Attest.Proofs.Suite.Branching
import Attest.Proofs.Path.Slash
import Attest.Proofs.Path.Address
import Attest.Proofs.Chain.Isolation
import Attest.Proofs.Step.Sequence
import Attest.Proofs.Step.Navigation
import Attest.Proofs.Step.Judgement
import Attest.Proofs.Value.Regular
import Attest.Proofs.Step.Filter
import Attest.Proofs.Step.Lookup
import Attest.Proofs.Chain.Trace
import Attest.Proofs.Value.Excerpt
import Attest.Proofs.Step.Wording
import Attest.Proofs.Chain.Diagnostics
import Attest.Proofs.Json.Scalars
import Attest.Proofs.Json.RoundTrip
import Attest.Proofs.Json.Infinities
import Attest.Proofs.Report.Bookkeeping
import Attest.Proofs.Suite.Locality
import Attest.Proofs.Suite.Identity
import Attest.Proofs.Suite.Loading
import Attest.Proofs.Chain.Teardown
import Attest.Proofs.Command.Problems

import Attest.Chain.Family

/-!
# Calls

What can be asked of a chain. A call that queues a step gives back the chain it was made on, so
calls can be strung together; a block moves on to an alternative, and its end back to the chain
that opened it.

## Main definitions

* `Call`, `Reply` — a call, and what it gives back
* `Family.call` — the effect of a call on a member of a family
-/

namespace Attest

/-- What is asked of a chain. -/
inductive Call where
  | queue (operation : Operation)
  | openBlock
  | nextBranch
  | closeBlock
  | verify
  /-- Check the number of candidates and finalize. -/
  | finish (relation : Relation) (n : Value)
  | trace
  | close
  | enter
  /-- The end of a scope, which a fault may be leaving. -/
  | exit (propagating : Bool)

/-- What a call gives back. -/
inductive Reply where
  | chain (k : ChainId)
  | verdict (passed : Bool)
  | text (s : String)
  | nothing
  deriving DecidableEq, Repr, Inhabited

namespace Family

def queueFor (f : Family) (k : ChainId) (entry : Entry) : Family :=
  f.modifyMember k fun m => { m with queue := m.queue ++ [entry] }

/-- Fork an alternative from a chain; its number is the number of members before. -/
def branchOff (f : Family) (owner : ChainId) : Family :=
  let depth := ((f.member? owner).map Member.depth).getD 0
  { f with members := f.members ++ [⟨some owner, depth + 1, [], [], []⟩] }

/-- Open a block on a chain and move on to its first alternative. -/
def openBlock (f : Family) (k : ChainId) : Family × ChainId :=
  let branch := f.members.length
  ({ f.branchOff k with
    blocks := f.blocks ++ [⟨k, [branch]⟩]
    openBlocks := f.blocks.length :: f.openBlocks }, branch)

def noteMisuse (f : Family) (message : String) : Family :=
  { f with misuse := f.misuse ++ [message] }

/-- Move on to the next alternative of the innermost open block. -/
def nextBranch (f : Family) (k : ChainId) : Family × ChainId :=
  match f.openBlocks with
  | [] => (f.noteMisuse "or_else() without either()", k)
  | block :: _ =>
    let branch := f.members.length
    let owner := ((f.blocks[block]?).map Block.owner).getD 0
    ({ f.branchOff owner with
      blocks := f.blocks.modify block fun b => { b with branches := b.branches ++ [branch] } },
      branch)

/-- Close the innermost open block and move back to the chain that opened it. -/
def closeBlock (f : Family) (k : ChainId) : Family × ChainId :=
  match f.openBlocks with
  | [] => (f.noteMisuse "end() without either()", k)
  | block :: rest =>
    let owner := ((f.blocks[block]?).map Block.owner).getD 0
    ({ f with openBlocks := rest }.queueFor owner (.block block), owner)

/-- Queue a step. -/
def perform (f : Family) (k : ChainId) (operation : Operation) : Family × Except Fault Reply :=
  match operation.step f.document.root f.limit with
  | .error fault => (f, .error fault)
  | .ok step => (f.queueFor k (.step step), .ok (.chain k))

def verify (f : Family) : Family × Except Fault Reply :=
  let (f, result) := f.conclude
  (f, result.map .verdict)

/-- The trace of a member that was run. -/
def traceOf (f : Family) (k : ChainId) : List String :=
  trace 0 (((f.member? k).map Member.records).getD [])

/-- The effect of a call on a member. -/
def call (f : Family) (k : ChainId) : Call → Family × Except Fault Reply
  | .queue operation => f.perform k operation
  | .openBlock => let (f, k) := f.openBlock k; (f, .ok (.chain k))
  | .nextBranch => let (f, k) := f.nextBranch k; (f, .ok (.chain k))
  | .closeBlock => let (f, k) := f.closeBlock k; (f, .ok (.chain k))
  | .verify => f.verify
  | .finish relation n =>
    match Step.count relation n with
    | .error fault => (f, .error fault)
    | .ok step => (f.queueFor k (.step step)).verify
  | .trace => (f, .ok (.text ("\n".intercalate (f.traceOf k))))
  | .close => let (f, sent) := f.close; (f, sent.map fun _ => .nothing)
  | .enter => (f, .ok (.chain k))
  | .exit propagating =>
    if propagating then (f, .ok .nothing)
    else let (f, sent) := f.close; (f, sent.map fun _ => .nothing)

/-- Whether all steps of a member were run and passed. -/
def memberPassed (f : Family) (k : ChainId) : Bool :=
  match f.member? k with
  | some m => m.records.length = m.queue.length && allPassed m.records
  | none => false

/-- A member in diagnostics. -/
def display (f : Family) (k : ChainId) : String :=
  match f.member? k with
  | some m =>
    let sort := if m.parent.isSome then "branch" else "chain"
    s!"<JsonChain {sort} {quoteText f.description} steps={m.queue.length} depth={m.depth}>"
  | none => ""

end Family

end Attest

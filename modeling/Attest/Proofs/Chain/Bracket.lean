import Attest.Chain.Call
import Attest.Proofs.Value.Shown

/-!
# The meaning of a sequence of calls

A user who strings calls together writes a tree down in brackets: `either` opens, `or_else`
separates and `end` closes. This file says what the tree is and what it means, without families,
members, stacks or queues. A step transforms the candidates that the stage before it left, whether
that one passed or not. A block puts all its alternatives to the same candidates; it passes if one
of them does, and goes on with the union of what those that passed left.

That every well bracketed sequence spells exactly one tree is not a matter of taste: without it
"the tree of the calls" would not be defined.

## Main definitions

* `Stage`, `trackCalls` — a step or a block of alternatives, and the calls that spell it
* `WellBracketed` — brackets match, with separators inside of them only
* `Stage.eval`, `evalTrack` — what a tree means

## Main results

* `exists_track` — a well bracketed sequence of calls spells a tree
* `trackCalls_injective` — and only one
-/

namespace Attest

/-- A stage of a chain: a step, or a block of one alternative and any number of others. -/
inductive Stage where
  | plain (operation : Operation)
  | block (first : List Stage) (others : List (List Stage))

/-! ### Spelling -/

mutual

/-- The calls that spell a stage. -/
def Stage.calls : Stage → List Call
  | .plain operation => [.queue operation]
  | .block first others => .openBlock :: (trackCalls first ++ othersCalls others)

/-- The calls that spell stages, one after the other. -/
def trackCalls : List Stage → List Call
  | [] => []
  | s :: rest => s.calls ++ trackCalls rest

/-- The calls that spell further alternatives, up to the end of the block. -/
def othersCalls : List (List Stage) → List Call
  | [] => [.closeBlock]
  | t :: rest => .nextBranch :: (trackCalls t ++ othersCalls rest)

end

/-- The brackets of calls match if `depth` blocks are open before them. -/
def BracketedFrom : Nat → List Call → Prop
  | depth, [] => depth = 0
  | depth, .queue _ :: rest => BracketedFrom depth rest
  | depth, .openBlock :: rest => BracketedFrom (depth + 1) rest
  | depth + 1, .nextBranch :: rest => BracketedFrom (depth + 1) rest
  | depth + 1, .closeBlock :: rest => BracketedFrom depth rest
  | _, _ => False

/-- Brackets match, with separators inside of them only, and nothing but building calls occurs. -/
def WellBracketed (calls : List Call) : Prop := BracketedFrom 0 calls

theorem BracketedFrom.builds : ∀ {calls : List Call} {depth : Nat}, BracketedFrom depth calls →
    ∀ c ∈ calls, (∃ operation, c = .queue operation) ∨ c = .openBlock ∨ c = .nextBranch ∨
      c = .closeBlock
  | .queue operation :: rest, depth, h, c, hc => by
    rcases List.mem_cons.mp hc with rfl | hc
    · exact .inl ⟨operation, rfl⟩
    · exact BracketedFrom.builds (by simpa [BracketedFrom] using h) c hc
  | .openBlock :: rest, depth, h, c, hc => by
    rcases List.mem_cons.mp hc with rfl | hc
    · exact .inr (.inl rfl)
    · exact BracketedFrom.builds (by simpa [BracketedFrom] using h) c hc
  | .nextBranch :: rest, depth + 1, h, c, hc => by
    rcases List.mem_cons.mp hc with rfl | hc
    · exact .inr (.inr (.inl rfl))
    · exact BracketedFrom.builds (by simpa [BracketedFrom] using h) c hc
  | .closeBlock :: rest, depth + 1, h, c, hc => by
    rcases List.mem_cons.mp hc with rfl | hc
    · exact .inr (.inr (.inr rfl))
    · exact BracketedFrom.builds (by simpa [BracketedFrom] using h) c hc

/-- What calls with matching brackets begin with: a track, and if blocks are open, the rest of the
innermost one. -/
theorem exists_track_of_bracketedFrom {calls : List Call} {depth : Nat}
    (h : BracketedFrom depth calls) :
    ∃ track, match depth with
      | 0 => calls = trackCalls track
      | depth + 1 => ∃ others rest, calls = trackCalls track ++ (othersCalls others ++ rest) ∧
          BracketedFrom depth rest ∧ rest.length < calls.length := by
  induction hn : calls.length using Nat.strongRecOn generalizing calls depth with
  | ind n ih =>
    subst hn
    match calls, depth, h with
    | [], 0, _ => exact ⟨[], rfl⟩
    | .queue operation :: rest, 0, h =>
      obtain ⟨track, ht⟩ := ih _ (by simp) (show BracketedFrom 0 rest from h) rfl
      exact ⟨.plain operation :: track, by simp [trackCalls, Stage.calls, ht]⟩
    | .queue operation :: rest, depth + 1, h =>
      obtain ⟨track, others, after, ht, hb, hlt⟩ :=
        ih _ (by simp) (show BracketedFrom (depth + 1) rest from h) rfl
      refine ⟨.plain operation :: track, others, after, ?_, hb, Nat.lt_succ_of_lt hlt⟩
      simp [trackCalls, Stage.calls, ht]
    | .openBlock :: rest, depth, h =>
      -- the block that opens is read first, and then what comes after its end
      obtain ⟨first, others, after, ht, hb, hlt⟩ :=
        ih _ (by simp) (show BracketedFrom (depth + 1) rest from h) rfl
      obtain ⟨track, htrack⟩ := ih _ (Nat.lt_succ_of_lt hlt) hb rfl
      refine ⟨.block first others :: track, ?_⟩
      cases depth with
      | zero =>
        have hend : after = trackCalls track := htrack
        simp [trackCalls, Stage.calls, ht, hend]
      | succ depth =>
        obtain ⟨more, last, hlast, hb, hlt'⟩ := htrack
        refine ⟨more, last, ?_, hb, Nat.lt_succ_of_lt (Nat.lt_trans hlt' hlt)⟩
        simp [trackCalls, Stage.calls, ht, hlast]
    | .nextBranch :: rest, depth + 1, h =>
      obtain ⟨track, others, after, ht, hb, hlt⟩ :=
        ih _ (by simp) (show BracketedFrom (depth + 1) rest from h) rfl
      refine ⟨[], track :: others, after, ?_, hb, Nat.lt_succ_of_lt hlt⟩
      simp [trackCalls, othersCalls, ht]
    | .closeBlock :: rest, depth + 1, h =>
      exact ⟨[], [], rest, by simp [trackCalls, othersCalls], h, Nat.lt_succ_self _⟩

/-- **A well bracketed sequence of calls spells a tree.** -/
theorem exists_track {calls : List Call} (h : WellBracketed calls) :
    ∃ track, trackCalls track = calls := by
  obtain ⟨track, ht⟩ := exists_track_of_bracketedFrom h
  exact ⟨track, ht.symm⟩

/-! ### Reading a tree back -/

/-- Calls that do not go on with a track: it has ended, or its alternative has. -/
def Stops : List Call → Prop
  | .queue _ :: _ | .openBlock :: _ => False
  | _ => True

theorem stops_othersCalls (others : List (List Stage)) (rest : List Call) :
    Stops (othersCalls others ++ rest) := by
  cases others <;> simp [othersCalls, Stops]

theorem not_stops_calls (s : Stage) (rest : List Call) : ¬ Stops (s.calls ++ rest) := by
  cases s <;> simp [Stage.calls, Stops]

mutual

theorem calls_append_inj : ∀ {s s' : Stage} {rest rest' : List Call},
    s.calls ++ rest = s'.calls ++ rest' → s = s' ∧ rest = rest'
  | .plain o, .plain o', rest, rest', h => by
    simp only [Stage.calls, List.singleton_append, List.cons.injEq, Call.queue.injEq] at h
    exact ⟨by rw [h.1], h.2⟩
  | .plain o, .block first' others', rest, rest', h => by simp [Stage.calls] at h
  | .block first others, .plain o', rest, rest', h => by simp [Stage.calls] at h
  | .block first others, .block first' others', rest, rest', h => by
    simp only [Stage.calls, List.cons_append, List.append_assoc, List.cons.injEq, true_and] at h
    obtain ⟨rfl, hothers⟩ :=
      trackCalls_append_inj h (stops_othersCalls others _) (stops_othersCalls others' _)
    obtain ⟨rfl, hrest⟩ := othersCalls_append_inj hothers
    exact ⟨rfl, hrest⟩

/-- A track is read up to where calls stop going on with it. -/
theorem trackCalls_append_inj : ∀ {t t' : List Stage} {rest rest' : List Call},
    trackCalls t ++ rest = trackCalls t' ++ rest' → Stops rest → Stops rest' →
      t = t' ∧ rest = rest'
  | [], [], rest, rest', h, _, _ => ⟨rfl, by simpa [trackCalls] using h⟩
  | [], s' :: t', rest, rest', h, hs, _ => by
    simp only [trackCalls, List.nil_append, List.append_assoc] at h
    exact absurd (h ▸ hs) (not_stops_calls s' _)
  | s :: t, [], rest, rest', h, _, hs => by
    simp only [trackCalls, List.nil_append, List.append_assoc] at h
    exact absurd (h ▸ hs) (not_stops_calls s _)
  | s :: t, s' :: t', rest, rest', h, hs, hs' => by
    simp only [trackCalls, List.append_assoc] at h
    obtain ⟨rfl, htail⟩ := calls_append_inj h
    obtain ⟨rfl, hrest⟩ := trackCalls_append_inj htail hs hs'
    exact ⟨rfl, hrest⟩

theorem othersCalls_append_inj : ∀ {ts ts' : List (List Stage)} {rest rest' : List Call},
    othersCalls ts ++ rest = othersCalls ts' ++ rest' → ts = ts' ∧ rest = rest'
  | [], [], rest, rest', h => by simpa [othersCalls] using h
  | [], t' :: ts', rest, rest', h => by simp [othersCalls] at h
  | t :: ts, [], rest, rest', h => by simp [othersCalls] at h
  | t :: ts, t' :: ts', rest, rest', h => by
    simp only [othersCalls, List.cons_append, List.append_assoc, List.cons.injEq, true_and] at h
    obtain ⟨rfl, hothers⟩ :=
      trackCalls_append_inj h (stops_othersCalls ts _) (stops_othersCalls ts' _)
    obtain ⟨rfl, hrest⟩ := othersCalls_append_inj hothers
    exact ⟨rfl, hrest⟩

end

/-- **No two trees are spelled by the same calls.** -/
theorem trackCalls_injective {t t' : List Stage} (h : trackCalls t = trackCalls t') : t = t' :=
  (trackCalls_append_inj (congrArg (· ++ []) h) trivial trivial).1

/-! ### Meaning -/

/-- What a track leaves: the candidates, and a record of each stage. -/
abbrev Left := List Value × List Record

/-- The record of a block, of which the alternatives left what is given. -/
def blockRecord (passed : Bool) (message : String) (ran : List Left) : Record :=
  .mk "either" passed message (ran.map fun r => .mk (allPassed r.2) r.2)

/-- What a block leaves: it goes on with the union of the alternatives that passed, and with the
candidates before it if there are none. -/
def joinAlternatives (candidates : List Value) (ran : List Left) :
    Except Fault (List Value × Record) :=
  let passing := ran.filter fun r => allPassed r.2
  if passing.isEmpty then
    .ok (candidates, blockRecord false s!"none of {ran.length} branches passed" ran)
  else do
    let merged ← unite (passing.map Prod.fst)
    return (merged,
      blockRecord true s!"{passing.length} of {ran.length} branches passed" ran)

section Eval

variable (root : Value) (limit : Int)

mutual

/-- What a stage leaves. -/
def Stage.eval (candidates : List Value) : Stage → Except Fault (List Value × Record)
  | .plain operation => do
    let s ← operation.step root limit
    let ran ← s.run candidates
    return (ran.candidates, .mk s.description ran.passed ran.message [])
  | .block first others => do
    let ran ← evalTrack candidates first
    let rest ← evalEach candidates others
    joinAlternatives candidates (ran :: rest)

/-- What stages leave, each of which begins with the candidates of the one before it. -/
def evalTrack (candidates : List Value) : List Stage → Except Fault Left
  | [] => .ok (candidates, [])
  | s :: rest => do
    let (vs, record) ← s.eval candidates
    let (ws, records) ← evalTrack vs rest
    return (ws, record :: records)

/-- What alternatives leave, all of which begin with the same candidates. -/
def evalEach (candidates : List Value) : List (List Stage) → Except Fault (List Left)
  | [] => .ok []
  | t :: rest => do
    let ran ← evalTrack candidates t
    return ran :: (← evalEach candidates rest)

end

end Eval

end Attest

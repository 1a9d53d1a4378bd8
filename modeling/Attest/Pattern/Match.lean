import Attest.Pattern.Parser

/-!
# Matching patterns

A matcher tries the alternatives of a pattern in order and goes back to the latest choice when the
rest of the pattern does not match. Going back is expressed by continuations: every part is given
what has to match after it.

## Main definitions

* `Pattern.Cursor` — a position and what the groups have captured
* `Pattern.run` — the first way to match a pattern and what follows it
* `Pattern.Compiled.matchesWhole` — whether a pattern matches a text from its start to its end

## Implementation notes

An iteration beyond the least count starts only where the one before it did not start, so a body
that matches nothing is tried once. Positions never decrease, so the bound on iterations, which
starts above the least count plus the length of what is left, is never used up.
-/

namespace Attest

namespace Pattern

/-! ### Characters -/

/-- The members of a named class, among all characters or among those of ASCII. -/
def namedContains (ascii : Bool) (c : Char) : NamedClass → Bool
  | .digit => if ascii then isDecimal c else Boundaries.decimalDigit.contains c
  | .space => if ascii then patternBlanks.contains c else Boundaries.blank.contains c
  | .word =>
    c = '_' ||
      (if ascii then isDecimal c || isAsciiLetter c else Boundaries.alphanumeric.contains c)

def isWordChar (modes : Modes) (c : Char) : Bool :=
  namedContains (!modes.contains 'u') c .word

/-- The small letter that stands for a character when case is ignored. -/
def folded (modes : Modes) (c : Char) : Char :=
  if modes.contains 'u' then lowerCase c else lowerAscii c

/-- The small letters that match a small letter. -/
def smallMatches (modes : Modes) (small : Char) : List Char :=
  if modes.contains 'u' then small :: caseVariants small else [small]

/-- The codes whose small letter is the given one. -/
def capitalCodes (modes : Modes) (small : Char) : List Nat :=
  let n := small.toNat
  if modes.contains 'u' then
    n :: (lowerRuns.toList.filterMap fun run =>
      let capital := ((n : Int) - run.delta).toNat
      if run.has capital then some capital else none)
  else if 'a' ≤ small && small ≤ 'z' then [n, n - 32]
  else [n]

/-- The codes that match a character. -/
def codesMatching (modes : Modes) (c : Char) : List Nat :=
  if modes.contains 'i' then
    (smallMatches modes (folded modes c)).flatMap (capitalCodes modes)
  else [c.toNat]

def itemContains (modes : Modes) (c : Char) (codes : List Nat) : ClassItem → Bool
  | .char code => codes.contains code
  | .range low high => codes.any fun n => low ≤ n && n ≤ high
  | .named name negated => namedContains (!modes.contains 'u') c name != negated

/-- Whether a bracketed set contains a character. -/
def setContains (modes : Modes) (negated : Bool) (items : List ClassItem) (c : Char) : Bool :=
  let codes := codesMatching modes c
  items.any (itemContains modes c codes) != negated

/-! ### Positions -/

/-- A position in a text, and the parts of it that the groups from 0 on have captured. -/
structure Cursor where
  place : Nat
  captures : List (Option (Nat × Nat))
  deriving DecidableEq, Repr, Inhabited

def Cursor.capture? (c : Cursor) (index : Nat) : Option (Nat × Nat) := (c.captures[index]?).join

def Cursor.capture (c : Cursor) (index start : Nat) : Cursor :=
  { c with captures := c.captures.set index (some (start, c.place)) }

/-- Whether a place of the text is what an anchor asks for. -/
def anchored (text : Array Char) (modes : Modes) (place : Nat) : Anchor → Bool
  | .textStart => place = 0
  | .textEnd => place = text.size
  | .lineStart => place = 0 || modes.contains 'm' && text[place - 1]? == some '\n'
  | .lineEnd =>
    place = text.size || text[place]? == some '\n' &&
      (modes.contains 'm' || place + 1 = text.size)
  | .wordEdge negated =>
    let before := 0 < place && (text[place - 1]?).any (isWordChar modes)
    let after := (text[place]?).any (isWordChar modes)
    text.size ≠ 0 && (before != after) != negated

/-- Whether the captured part occurs again from a place on. -/
def repeats (text : Array Char) (modes : Modes) (start place : Nat) : Nat → Bool
  | 0 => true
  | n + 1 =>
    match text[start]?, text[place]? with
    | some a, some b =>
      (if modes.contains 'i' then folded modes a = folded modes b else a = b)
        && repeats text modes (start + 1) (place + 1) n
    | _, _ => false

/-! ### Iteration -/

/-- What follows a part. -/
abbrev Continuation := Cursor → Option Cursor

/-- Whether another iteration may start after `count` of them, the last one from `last`. -/
def mayIterate (most : Option Nat) (count : Nat) (last : Option Nat) (place : Nat) : Bool :=
  most.all (count < ·) && last ≠ some place

/-- As many iterations as possible, then fewer. -/
def iterateGreedily (body : Continuation → Continuation) (least : Nat) (most : Option Nat)
    (next : Continuation) : Nat → Nat → Option Nat → Continuation
  | 0, _, _, c => next c
  | bound + 1, count, last, c =>
    if count < least then
      body (iterateGreedily body least most next bound (count + 1) last) c
    else if mayIterate most count last c.place then
      match body (iterateGreedily body least most next bound (count + 1) (some c.place)) c with
      | some c' => some c'
      | none => next c
    else next c

/-- As few iterations as possible, then more. -/
def iterateLazily (body : Continuation → Continuation) (least : Nat) (most : Option Nat)
    (next : Continuation) : Nat → Nat → Option Nat → Continuation
  | 0, _, _, c => next c
  | bound + 1, count, last, c =>
    if count < least then
      body (iterateLazily body least most next bound (count + 1) last) c
    else
      match next c with
      | some c' => some c'
      | none =>
        if mayIterate most count last c.place then
          body (iterateLazily body least most next bound (count + 1) (some c.place)) c
        else none

/-- As many iterations as possible and never fewer. -/
def iteratePossessively (body : Continuation → Continuation) (least : Nat) (most : Option Nat) :
    Nat → Nat → Option Nat → Continuation
  | 0, _, _, c => some c
  | bound + 1, count, last, c =>
    if count < least then
      match body some c with
      | some c' => iteratePossessively body least most bound (count + 1) last c'
      | none => none
    else if mayIterate most count last c.place then
      match body some c with
      | some c' => iteratePossessively body least most bound (count + 1) (some c.place) c'
      | none => some c
    else some c

/-! ### The matcher -/

mutual

/-- The first way to match a pattern at a cursor such that the rest matches after it. -/
def run (text : Array Char) (widths : Nat → Width) :
    Pattern → Modes → Continuation → Continuation
  | .oneOf negated items, modes, next, c =>
    match text[c.place]? with
    | some x =>
      if setContains modes negated items x then next { c with place := c.place + 1 } else none
    | none => none
  | .anyChar, modes, next, c =>
    match text[c.place]? with
    | some x =>
      if x ≠ '\n' || modes.contains 's' then next { c with place := c.place + 1 } else none
    | none => none
  | .anchor place, modes, next, c => if anchored text modes c.place place then next c else none
  | .sequence parts, modes, next, c => runAll text widths parts modes next c
  | .choice branches, modes, next, c => runAny text widths branches modes next c
  | .iterate greed least most body, modes, next, c =>
    let bound := least + (text.size - c.place) + 2
    match greed with
    | .greedy =>
      iterateGreedily (fun k c => run text widths body modes k c) least most next bound 0 none c
    | .lazy =>
      iterateLazily (fun k c => run text widths body modes k c) least most next bound 0 none c
    | .possessive =>
      match iteratePossessively (fun k c => run text widths body modes k c) least most bound 0
          none c with
      | some c' => next c'
      | none => none
  | .group index on off body, modes, next, c =>
    let start := c.place
    run text widths body (modes.change on off)
      (fun c' => next (match index with
        | some i => c'.capture i start
        | none => c')) c
  | .atomic body, modes, next, c =>
    match run text widths body modes some c with
    | some c' => next c'
    | none => none
  | .look ahead negated body, modes, next, c =>
    let back := if ahead then 0 else (width widths body).1
    let found := if back ≤ c.place then
        run text widths body modes some { c with place := c.place - back }
      else none
    match found with
    | some c' => if negated then none else next { c' with place := c.place }
    | none => if negated then next c else none
  | .backReference index, modes, next, c =>
    match c.capture? index with
    | some (start, stop) =>
      if repeats text modes start c.place (stop - start) then
        next { c with place := c.place + (stop - start) }
      else none
    | none => none
  | .conditional index yes no, modes, next, c =>
    if (c.capture? index).isSome then run text widths yes modes next c
    else run text widths no modes next c

/-- The parts one after the other. -/
def runAll (text : Array Char) (widths : Nat → Width) :
    List Pattern → Modes → Continuation → Continuation
  | [], _, next, c => next c
  | p :: rest, modes, next, c =>
    run text widths p modes (fun c' => runAll text widths rest modes next c') c

/-- The first of the branches that matches with the rest. -/
def runAny (text : Array Char) (widths : Nat → Width) :
    List Pattern → Modes → Continuation → Continuation
  | [], _, _, _ => none
  | p :: rest, modes, next, c =>
    match run text widths p modes next c with
    | some c' => some c'
    | none => runAny text widths rest modes next c

end

/-- Whether the pattern matches the whole of a text. -/
def Compiled.matchesWhole (p : Compiled) (text : String) : Bool :=
  let chars := text.toList.toArray
  let start : Cursor := ⟨0, p.widths.map fun _ => none⟩
  (run chars p.groupWidth p.tree p.modes
    (fun c => if c.place = chars.size then some c else none) start).isSome

end Pattern

end Attest

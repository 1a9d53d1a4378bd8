import Attest.Pattern.Basic
import Attest.Text.CharName

/-!
# Reading patterns

A pattern is read from left to right, one character or one escaped pair at a time. Positions in
errors are counted in characters from the start of the text.

## Main definitions

* `Pattern.Token`, `Pattern.Reading` — what is still to be read and what has been seen
* `Pattern.alternatives`, `Pattern.parts` — the two levels of the grammar
* `Pattern.compile` — the pattern that a text stands for

## Implementation notes

The two levels call each other on ever shorter rests. The recursion is on a bound that starts
above twice the number of tokens, and every call at the same rest spends one unit of it, so it is
never used up.
-/

namespace Attest

namespace Pattern

/-! ### Tokens -/

/-- A character, or a backslash with the character after it, and its position. -/
structure Token where
  text : List Char
  place : Nat
  deriving DecidableEq, Repr, Inhabited

/-- The tokens of a text from a position on, and whether a lone backslash ends it. -/
def tokens : Nat → List Char → List Token × Bool
  | _, [] => ([], false)
  | n, c :: rest =>
    if c = '\\' then
      match rest with
      | [] => ([], true)
      | d :: rest' =>
        let (ts, dangling) := tokens (n + 2) rest'
        (⟨[c, d], n⟩ :: ts, dangling)
    else
      let (ts, dangling) := tokens (n + 1) rest
      (⟨[c], n⟩ :: ts, dangling)

/-- The state of a reader. -/
structure Reading where
  rest : List Token
  /-- The length of the text. -/
  finish : Nat
  /-- Whether a lone backslash follows the last token. -/
  dangling : Bool
  /-- Whether the pattern is a text and not a byte string. -/
  isText : Bool
  modes : Modes
  names : List (List Char × Nat) := []
  /-- The widths of the groups from 0 on; an open group has none. -/
  widths : List (Option Width) := [none]
  /-- Inside an assertion that looks back, how many groups were there before it. -/
  groupsBefore : Option Nat := none
  /-- The groups that conditions ask for, with the position of the first one. -/
  conditions : List (Nat × Nat) := []

/-- The position of the next token. -/
def Reading.place (r : Reading) : Nat :=
  match r.rest with
  | t :: _ => t.place
  | [] => r.finish

def Reading.next? (r : Reading) : Option (List Char) := r.rest.head?.map (·.text)

def Reading.nextIs (r : Reading) (p : Char → Bool) : Bool :=
  match r.rest with
  | ⟨[c], _⟩ :: _ => p c
  | _ => false

def Reading.groupWidth (r : Reading) (index : Nat) : Width :=
  ((r.widths[index]?).join).getD (0, 0)

def Reading.groupIsClosed (r : Reading) (index : Nat) : Bool := ((r.widths[index]?).join).isSome

abbrev Parse (α : Type) := StateT Reading (Except Error) α

/-- Give up with a message about a position. In byte strings only ASCII is shown as it is. -/
def failAt {α : Type} (message : String) (place : Nat) : Parse α := do
  let r ← get
  let shown (c : Char) : List Char := if c.toNat < 0x80 then [c] else numericEscape c
  throw (.place (if r.isText then message else String.ofList (message.toList.flatMap shown)) place)

/-- Give up with a message about what lies `back` characters before the next token. -/
def failHere {α : Type} (message : String) (back : Nat) : Parse α := do
  failAt message ((← get).place - back)

/-- A lone backslash at the end is noticed when it comes next. -/
def lookAhead : Parse Unit := do
  let r ← get
  if r.rest.isEmpty && r.dangling then
    throw (.place "bad escape (end of pattern)" (r.finish - 1))

/-- The next token, which is consumed. -/
def take? : Parse (Option (List Char)) := do
  let r ← get
  match r.rest with
  | [] => return none
  | t :: rest =>
    set { r with rest := rest }
    lookAhead
    return some t.text

/-- Consume a character if it comes next. -/
def accept (c : Char) : Parse Bool := do
  if (← get).next? = some [c] then
    let _ ← take?
    return true
  else
    return false

/-- Up to `limit` characters of a class. -/
def takeSome (p : Char → Bool) : Nat → Parse (List Char)
  | 0 => return []
  | limit + 1 => do
    if (← get).nextIs p then
      match ← take? with
      | some t => return t ++ (← takeSome p limit)
      | none => return []
    else
      return []

/-- All characters of a class that come next. -/
def takeAll (p : Char → Bool) : Parse (List Char) := do
  takeSome p (← get).rest.length

/-- The text before a terminator, which is consumed too. -/
def takeUntil (terminator : Char) (subject : String) : Nat → List Char → Parse (List Char)
  | 0, _ => failHere s!"missing {subject}" 0
  | bound + 1, found => do
    match ← take? with
    | none =>
      if found.isEmpty then failHere s!"missing {subject}" 0
      else failHere s!"missing {terminator}, unterminated name" found.length
    | some t =>
      if t = [terminator] then
        if found.isEmpty then failHere s!"missing {subject}" 1 else return found
      else
        takeUntil terminator subject bound (found ++ t)

def takeName (terminator : Char) (subject : String) : Parse (List Char) := do
  takeUntil terminator subject ((← get).rest.length + 1) []

/-! ### Numbers and names -/

def isOctal (c : Char) : Bool := '0' ≤ c && c ≤ '7'

def isDecimal (c : Char) : Bool := '0' ≤ c && c ≤ '9'

def isHex (c : Char) : Bool := isDecimal c || 'a' ≤ c && c ≤ 'f' || 'A' ≤ c && c ≤ 'F'

def isAsciiLetter (c : Char) : Bool := 'a' ≤ c && c ≤ 'z' || 'A' ≤ c && c ≤ 'Z'

def hexValue (c : Char) : Nat :=
  if isDecimal c then c.toNat - 48 else if 'a' ≤ c then c.toNat - 87 else c.toNat - 55

/-- The number that digits stand for. -/
def numeral (base : Nat) (digits : List Char) : Nat :=
  digits.foldl (fun n c => base * n + hexValue c) 0

/-- Whether a text can name a group. -/
def isName : List Char → Bool
  | [] => false
  | c :: rest => Boundaries.nameStart.contains c && rest.all Boundaries.nameRest.contains

/-- Digits, also those of other scripts, with single underscores between them. -/
def spelledDigits? : List Char → Option (List Nat)
  | [] => none
  | c :: rest =>
    if Boundaries.decimalDigit.contains c then
      let value := Boundaries.digitValue c
      match rest with
      | [] => some [value]
      | '_' :: more => (spelledDigits? more).map (value :: ·)
      | more => (spelledDigits? more).map (value :: ·)
    else none

/-- The number of a group in a condition. It may be signed and stand between blanks. -/
def groupNumber? (text : List Char) : Option Nat :=
  let bare := ((text.dropWhile Boundaries.blank.contains).reverse.dropWhile
    Boundaries.blank.contains).reverse
  let (negative, digits) := match bare with
    | '-' :: ds => (true, ds)
    | '+' :: ds => (false, ds)
    | ds => (false, ds)
  match spelledDigits? digits with
  | some ds =>
    let n := ds.foldl (fun n d => 10 * n + d) 0
    if 4300 < ds.length || (negative && n ≠ 0) then none else some n
  | none => none

/-! ### Escapes -/

/-- The class and whether it is negated, for the letter of an escape. -/
def namedClass? : Char → Option (NamedClass × Bool)
  | 'd' => some (.digit, false)
  | 'D' => some (.digit, true)
  | 's' => some (.space, false)
  | 'S' => some (.space, true)
  | 'w' => some (.word, false)
  | 'W' => some (.word, true)
  | _ => none

/-- The place that an escape outside brackets stands for. -/
def anchor? : Char → Option Anchor
  | 'A' => some .textStart
  | 'b' => some (.wordEdge false)
  | 'B' => some (.wordEdge true)
  | 'Z' => some .textEnd
  | _ => none

def controlCode? : Char → Option Nat
  | 'a' => some 7
  | 'b' => some 8
  | 'f' => some 12
  | 'n' => some 10
  | 'r' => some 13
  | 't' => some 9
  | 'v' => some 11
  | '\\' => some 92
  | _ => none

/-- The code given by a fixed count of hexadecimal digits. -/
def hexEscape (letter : Char) (count start : Nat) : Parse Nat := do
  let digits ← takeSome isHex count
  let shown := String.ofList ('\\' :: letter :: digits)
  if digits.length ≠ count then failAt s!"incomplete escape {shown}" start
  else
    let code := numeral 16 digits
    if 0x110000 ≤ code then failAt s!"bad escape {shown}" start else return code

/-- The code given by the name of a character. -/
def namedEscape (start : Nat) : Parse Nat := do
  if ← accept '\x7b' then
    let name ← takeName '\x7d' "character name"
    match namedCharacter? name with
    | some code => return code
    | none => failAt s!"undefined character name {quoteText (String.ofList name)}" start
  else
    failHere "missing \x7b" 0

def octalCode (digits : List Char) (start : Nat) : Parse Nat := do
  let code := numeral 8 digits
  if 0o377 < code then
    failAt s!"octal escape value \\{String.ofList digits} outside of range 0-0o377" start
  else
    return code

/-- The code that an escape stands for outside and inside brackets alike. -/
def codeEscape? (letter : Char) (start : Nat) : Parse (Option Nat) := do
  let isText := (← get).isText
  if letter = 'x' then some <$> hexEscape letter 2 start
  else if letter = 'u' && isText then some <$> hexEscape letter 4 start
  else if letter = 'U' && isText then some <$> hexEscape letter 8 start
  else if letter = 'N' && isText then some <$> namedEscape start
  else return none

def badEscape {α : Type} (letter : Char) (start : Nat) : Parse α :=
  failAt s!"bad escape \\{letter}" start

/-- What an escape inside brackets stands for. -/
def classEscape (letter : Char) (start : Nat) : Parse ClassItem := do
  if let some code := controlCode? letter then return .char code
  if let some (name, negated) := namedClass? letter then return .named name negated
  if let some code ← codeEscape? letter start then return .char code
  if isOctal letter then
    let more ← takeSome isOctal 2
    return .char (← octalCode (letter :: more) start)
  if isDecimal letter || isAsciiLetter letter then badEscape letter start
  return .char letter.toNat

/-- Inside an assertion that looks back, only groups before it can be referred to. -/
def checkReach (index : Nat) : Parse Unit := do
  let r ← get
  if let some before := r.groupsBefore then
    if !r.groupIsClosed index then failHere "cannot refer to an open group" 0
    if before ≤ index then
      failHere "cannot refer to group defined in the same lookbehind subpattern" 0

/-- An escape that starts with a digit: three octal digits are a code, fewer refer to a group. -/
def digitEscape (letter : Char) (start : Nat) : Parse Pattern := do
  if letter = '0' then
    let more ← takeSome isOctal 2
    return .oneOf false [.char (numeral 8 more)]
  let second ← takeSome isDecimal 1
  let third ← if isOctal letter && second ≠ [] && second.all isOctal then takeSome isOctal 1
    else pure []
  if third ≠ [] then
    return .oneOf false [.char (← octalCode (letter :: second ++ third) start)]
  let index := numeral 10 (letter :: second)
  let r ← get
  if r.widths.length ≤ index then failAt s!"invalid group reference {index}" (start + 1)
  if !r.groupIsClosed index then failAt "cannot refer to an open group" start
  checkReach index
  return .backReference index

/-- What an escape outside brackets stands for. -/
def escape (letter : Char) (start : Nat) : Parse Pattern := do
  if let some place := anchor? letter then return .anchor place
  if let some (name, negated) := namedClass? letter then return .oneOf false [.named name negated]
  if let some code := controlCode? letter then return .oneOf false [.char code]
  if let some code ← codeEscape? letter start then return .oneOf false [.char code]
  if isDecimal letter then digitEscape letter start
  else if isAsciiLetter letter then badEscape letter start
  else return .oneOf false [.char letter.toNat]

/-! ### Bracketed sets -/

/-- A member or an end of a range; the start is the position of its token. -/
def classMember (token : List Char) (start : Nat) : Parse ClassItem :=
  match token with
  | ['\\', c] => classEscape c start
  | [c] => return .char c.toNat
  | _ => return .char 0

/-- The members up to the closing bracket, which stands for itself if it comes first. -/
def setMembers (opening : Nat) : Nat → List ClassItem → Parse (List ClassItem)
  | 0, _ => failAt "unterminated character set" opening
  | bound + 1, found => do
    let start := (← get).place
    match ← take? with
    | none => failAt "unterminated character set" opening
    | some this =>
      if this = [']'] && !found.isEmpty then return found
      let low ← classMember this start
      if ← accept '-' then
        let thatStart := (← get).place
        match ← take? with
        | none => failAt "unterminated character set" opening
        | some that =>
          if that = [']'] then return found ++ [low, .char '-'.toNat]
          let high ← classMember that thatStart
          let mismatch : String :=
            s!"bad character range {String.ofList this}-{String.ofList that}"
          match low, high with
          | .char a, .char b =>
            if b < a then failHere mismatch (this.length + 1 + that.length)
            else setMembers opening bound (found ++ [.range a b])
          | _, _ => failHere mismatch (this.length + 1 + that.length)
      else
        setMembers opening bound (found ++ [low])

def bracketed (opening : Nat) : Parse Pattern := do
  let negated ← accept '^'
  let items ← setMembers opening ((← get).rest.length + 1) []
  return .oneOf negated items.eraseDups

/-! ### Repetition -/

/-- The counts of a repetition. -/
abbrev Counts := Nat × Option Nat

def repetitionBound : Nat := 4294967295

def countOf (digits : List Char) : Parse Nat := do
  if 4300 < digits.length then throw (.tooManyDigits digits.length)
  let n := numeral 10 digits
  if repetitionBound ≤ n then throw .repetitionTooLarge
  return n

/-- The counts after an opening brace; without counts the brace stands for itself. -/
def bracedCounts : Parse (Option Counts) := do
  if (← get).next? = some ['\x7d'] then return none
  let start ← get
  let low ← takeAll isDecimal
  let high ← if ← accept ',' then takeAll isDecimal else pure low
  if !(← accept '\x7d') then
    set start
    return none
  let least ← if low.isEmpty then pure 0 else countOf low
  if high.isEmpty then return some (least, none)
  let most ← countOf high
  if most < least then failAt "min repeat greater than max repeat" start.place
  return some (least, some most)

/-- The counts that a sign of repetition stands for. -/
def counts (sign : Char) : Parse (Option Counts) :=
  if sign = '?' then return some (0, some 1)
  else if sign = '*' then return some (0, none)
  else if sign = '+' then return some (1, none)
  else bracedCounts

/-- Repeat the last of the parts, which are given in reverse. -/
def repeatLast (start : Nat) (range : Counts) (found : List Pattern) : Parse (List Pattern) := do
  match found with
  | [] | .anchor _ :: _ => failAt "nothing to repeat" start
  | .iterate .. :: _ => failAt "multiple repeat" start
  | last :: others =>
    if ← accept '?' then return .iterate .lazy range.1 range.2 last :: others
    if ← accept '+' then return .iterate .possessive range.1 range.2 last :: others
    return .iterate .greedy range.1 range.2 last :: others

/-! ### Modes -/

def modeLetters : List Char := ['i', 'L', 'm', 's', 'x', 'a', 't', 'u']

/-- The letter of a token that is one of the modes. -/
def modeOf? : List Char → Option Char
  | [c] => if modeLetters.contains c then some c else none
  | _ => none

/-- A message about a token that should have been a mode letter. -/
def notAMode {α : Type} (token : List Char) (otherwise : String) : Parse α :=
  let isLetter := match token with
    | [c] => Boundaries.alphanumeric.contains c && Boundaries.nameStart.contains c
    | _ => false
  failHere (if isLetter then "unknown flag" else otherwise) token.length

/-- The modes that are turned on, from a letter to the sign that ends them. -/
def modesOn : Nat → Char → Modes → Parse (Modes × Char)
  | 0, _, _ => failHere "missing -, : or )" 0
  | bound + 1, letter, found => do
    let isText := (← get).isText
    if isText && letter = 'L' then
      failHere "bad inline flags: cannot use 'L' flag with a str pattern" 0
    if !isText && letter = 'u' then
      failHere "bad inline flags: cannot use 'u' flag with a bytes pattern" 0
    let on := Modes.union found [letter]
    if Modes.alphabets.contains letter && (on.filter Modes.alphabets.contains) ≠ [letter] then
      failHere "bad inline flags: flags 'a', 'u' and 'L' are incompatible" 0
    match ← take? with
    | none => failHere "missing -, : or )" 0
    | some [')'] => return (on, ')')
    | some ['-'] => return (on, '-')
    | some [':'] => return (on, ':')
    | some token =>
      match modeOf? token with
      | some next => modesOn bound next on
      | none => notAMode token "missing -, : or )"

/-- The modes that are turned off, up to the colon. -/
def modesOff : Nat → Char → Modes → Parse Modes
  | 0, _, _ => failHere "missing :" 0
  | bound + 1, letter, found => do
    if Modes.alphabets.contains letter then
      failHere "bad inline flags: cannot turn off flags 'a', 'u' and 'L'" 0
    let off := Modes.union found [letter]
    match ← take? with
    | none => failHere "missing :" 0
    | some [':'] => return off
    | some token =>
      match modeOf? token with
      | some next => modesOff bound next off
      | none => notAMode token "missing :"

/-- The modes of a group, or none if they are set for the whole pattern. -/
def groupModes (first : Char) : Parse (Option (Modes × Modes)) := do
  let bound := (← get).rest.length + 1
  let (on, stop) ← if first = '-' then pure ([], '-') else modesOn bound first []
  if stop = ')' then
    modify fun r => { r with modes := r.modes.union on }
    return none
  if on.contains 't' then failHere "bad inline flags: cannot turn on global flag" 1
  let off ← if stop = '-' then do
      match ← take? with
      | none => failHere "missing flag" 0
      | some token =>
        match modeOf? token with
        | some letter => modesOff bound letter []
        | none => notAMode token "missing flag"
    else pure []
  if off.contains 't' then failHere "bad inline flags: cannot turn off global flag" 1
  if on.any off.contains then failHere "bad inline flags: flag turned on and off" 1
  return some (on, off)

/-! ### Groups -/

def checkName (name : List Char) : Parse Unit := do
  if !isName name then
    failHere s!"bad character in group name {quoteText (String.ofList name)}" (name.length + 1)

/-- Start a group with the next number. -/
def openGroup (name : Option (List Char)) : Parse Nat := do
  let r ← get
  let index := r.widths.length
  match name with
  | none =>
    set { r with widths := r.widths ++ [none] }
    return index
  | some n =>
    match r.names.lookup n with
    | some older =>
      let shown := quoteText (String.ofList n)
      failHere s!"redefinition of group name {shown} as group {index}; was group {older}"
        (n.length + 1)
    | none =>
      set { r with widths := r.widths ++ [none], names := (n, index) :: r.names }
      return index

def closeGroup (index : Nat) (body : Pattern) : Parse Unit :=
  modify fun r => { r with widths := r.widths.set index (some (width r.groupWidth body)) }

def namedReference : Parse Pattern := do
  let name ← takeName ')' "group name"
  checkName name
  let r ← get
  match r.names.lookup name with
  | none => failHere s!"unknown group name {quoteText (String.ofList name)}" (name.length + 1)
  | some index =>
    if !r.groupIsClosed index then failHere "cannot refer to an open group" (name.length + 1)
    checkReach index
    return .backReference index

/-- The largest number of groups. -/
def groupBound : Nat := 1073741823

/-- The group that a condition asks for. -/
def conditionGroup : Parse Nat := do
  let name ← takeName ')' "group name"
  let shown := quoteText (String.ofList name)
  let r ← get
  if isName name then
    match r.names.lookup name with
    | some index =>
      checkReach index
      return index
    | none => failHere s!"unknown group name {shown}" (name.length + 1)
  match groupNumber? name with
  | none => failHere s!"bad character in group name {shown}" (name.length + 1)
  | some index =>
    if index = 0 then failHere "bad group number" (name.length + 1)
    if groupBound ≤ index then failHere s!"invalid group reference {index}" (name.length + 1)
    if (r.conditions.lookup index).isNone then
      set { r with conditions := r.conditions ++ [(index, r.place - name.length - 1)] }
    checkReach index
    return index

def skipComment (start : Nat) : Nat → Parse Unit
  | 0 => failAt "missing ), unterminated comment" start
  | bound + 1 => do
    match ← take? with
    | none => failAt "missing ), unterminated comment" start
    | some t => if t = [')'] then return () else skipComment start bound

/-- Skip to the end of the line. -/
def skipLine : Nat → Parse Unit
  | 0 => return ()
  | bound + 1 => do
    match ← take? with
    | none => return ()
    | some t => if t = ['\n'] then return () else skipLine bound

def closing (start : Nat) : Parse Unit := do
  if !(← accept ')') then failAt "missing ), unterminated subpattern" start

def patternBlanks : List Char := [' ', '\t', '\n', '\r', '\x0b', '\x0c']

/-- What opens after a parenthesis. -/
inductive Opening where
  | capture (name : Option (List Char))
  | plain (on off : Modes)
  | atomic
  | look (ahead negated : Bool)
  | condition (index : Nat)
  /-- A part without contents of its own. -/
  | done (part : Pattern)
  | comment
  | wholeModes

/-- The head of a group, after its parenthesis. -/
def opening (start : Nat) : Parse Opening := do
  if !(← accept '?') then return .capture none
  match ← take? with
  | none => failHere "unexpected end of pattern" 0
  | some ['P'] =>
    if ← accept '<' then
      let name ← takeName '>' "group name"
      checkName name
      return .capture (some name)
    if ← accept '=' then return .done (← namedReference)
    match ← take? with
    | none => failHere "unexpected end of pattern" 0
    | some t => failHere s!"unknown extension ?P{String.ofList t}" (t.length + 2)
  | some [':'] => return .plain [] []
  | some ['#'] =>
    skipComment start ((← get).rest.length + 1)
    return .comment
  | some ['='] => return .look true false
  | some ['!'] => return .look true true
  | some ['<'] =>
    match ← take? with
    | none => failHere "unexpected end of pattern" 0
    | some ['='] => return .look false false
    | some ['!'] => return .look false true
    | some t => failHere s!"unknown extension ?<{String.ofList t}" (t.length + 2)
  | some ['('] => return .condition (← conditionGroup)
  | some ['>'] => return .atomic
  | some t =>
    let first := if t = ['-'] then some '-' else modeOf? t
    match first with
    | some c =>
      match ← groupModes c with
      | some (on, off) => return .plain on off
      | none => return .wholeModes
    | none => failHere s!"unknown extension ?{String.ofList t}" (t.length + 1)

/-! ### The grammar -/

mutual

/-- Alternatives between bars. Outside groups the modes found so far decide about blanks. -/
def alternatives : Nat → Bool → Bool → Parse Pattern
  | 0, _, _ => failHere "pattern too deep" 0
  | bound + 1, top, verbose => do
    let first ← parts bound verbose top []
    let others ← moreAlternatives bound top verbose
    match others with
    | [] => return first
    | _ => return .choice (first :: others)

def moreAlternatives : Nat → Bool → Bool → Parse (List Pattern)
  | 0, _, _ => return []
  | bound + 1, top, verbose => do
    if ← accept '|' then
      let modes := (← get).modes
      let verbose' := if top then modes.contains 'x' else verbose
      let branch ← parts bound verbose' false []
      return branch :: (← moreAlternatives bound top verbose')
    else
      return []

/-- A sequence of parts; those found so far are given in reverse. Modes for the whole pattern may
only be set where nothing precedes them. -/
def parts : Nat → Bool → Bool → List Pattern → Parse Pattern
  | 0, _, _, _ => failHere "pattern too deep" 0
  | bound + 1, verbose, mayStart, found => do
    let start := (← get).place
    match (← get).next? with
    | none | some ['|'] | some [')'] => return .sequence found.reverse
    | some this =>
      let _ ← take?
      match this with
      | ['\\', c] =>
        let part ← escape c start
        parts bound verbose mayStart (part :: found)
      | [c] =>
        if verbose && patternBlanks.contains c then parts bound verbose mayStart found
        else if verbose && c = '#' then
          skipLine ((← get).rest.length + 1)
          parts bound verbose mayStart found
        else if c = '[' then
          let part ← bracketed start
          parts bound verbose mayStart (part :: found)
        else if c = '.' then parts bound verbose mayStart (.anyChar :: found)
        else if c = '^' then parts bound verbose mayStart (.anchor .lineStart :: found)
        else if c = '$' then parts bound verbose mayStart (.anchor .lineEnd :: found)
        else if ['?', '*', '+', '\x7b'].contains c then
          match ← counts c with
          | none => parts bound verbose mayStart (.oneOf false [.char c.toNat] :: found)
          | some range =>
            let found' ← repeatLast start range found
            parts bound verbose mayStart found'
        else if c = '(' then
          match ← opening start with
          | .comment => parts bound verbose mayStart found
          | .done part => parts bound verbose mayStart (part :: found)
          | .wholeModes =>
            if !mayStart || !found.isEmpty then
              failAt "global flags not at the start of the expression" start
            parts bound ((← get).modes.contains 'x') mayStart found
          | .capture name =>
            let index ← openGroup name
            let body ← alternatives bound false verbose
            closing start
            closeGroup index body
            parts bound verbose mayStart (.group (some index) [] [] body :: found)
          | .plain on off =>
            let verbose' := (verbose || on.contains 'x') && !off.contains 'x'
            let body ← alternatives bound false verbose'
            closing start
            parts bound verbose mayStart (.group none on off body :: found)
          | .atomic =>
            let body ← alternatives bound false verbose
            closing start
            parts bound verbose mayStart (.atomic body :: found)
          | .look ahead negated =>
            let outer := (← get).groupsBefore
            if !ahead && outer.isNone then
              modify fun r => { r with groupsBefore := some r.widths.length }
            let body ← alternatives bound false verbose
            if !ahead && outer.isNone then modify fun r => { r with groupsBefore := none }
            closing start
            parts bound verbose mayStart (.look ahead negated body :: found)
          | .condition index =>
            let yes ← parts bound verbose false []
            let no ← if ← accept '|' then do
                let branch ← parts bound verbose false []
                if (← get).next? = some ['|'] then
                  failHere "conditional backref with more than two branches" 0
                pure branch
              else pure (.sequence [])
            closing start
            parts bound verbose mayStart (.conditional index yes no :: found)
        else parts bound verbose mayStart (.oneOf false [.char c.toNat] :: found)
      | _ => parts bound verbose mayStart found

end

/-! ### Checks on the whole pattern -/

mutual

/-- Assertions that look back need a pattern of one fixed width; widths of groups are given. -/
def check (groups : Nat → Width) (template : Bool) : Pattern → Except Error Unit
  | .oneOf .. | .anyChar | .anchor _ | .backReference _ => .ok ()
  | .sequence ps | .choice ps => checkAll groups template ps
  | .iterate greed _ _ body =>
    if template then
      let name := match greed with
        | .greedy => "MAX_REPEAT"
        | .lazy => "MIN_REPEAT"
        | .possessive => "POSSESSIVE_REPEAT"
      .error (.whole s!"internal: unsupported template operator {name}")
    else check groups template body
  | .group _ _ _ body | .atomic body => check groups template body
  | .look ahead _ body =>
    let (low, high) := width groups body
    if !ahead && repetitionBound < low then .error (.whole "looks too much behind")
    else if !ahead && low ≠ high then
      .error (.whole "look-behind requires fixed-width pattern")
    else check groups template body
  | .conditional _ yes no =>
    match check groups template yes with
    | .ok () => check groups template no
    | .error e => .error e

def checkAll (groups : Nat → Width) (template : Bool) : List Pattern → Except Error Unit
  | [] => .ok ()
  | p :: rest =>
    match check groups template p with
    | .ok () => checkAll groups template rest
    | .error e => .error e

end

/-- A pattern that can be matched. -/
structure Compiled where
  tree : Pattern
  modes : Modes
  /-- The widths of the groups from 0 on. -/
  widths : List (Option Width)
  isText : Bool
  deriving Inhabited

def Compiled.groupWidth (p : Compiled) (index : Nat) : Width :=
  ((p.widths[index]?).join).getD (0, 0)

/-- The modes of a whole pattern: a text is not restricted to ASCII unless it says so. -/
def wholeModes (isText : Bool) (modes : Modes) : Except Error Modes :=
  if isText then
    if !modes.contains 'a' then .ok (modes.union ['u'])
    else if modes.contains 'u' then .error .incompatibleAlphabets
    else .ok modes
  else if modes.contains 'L' && modes.contains 'a' then .error .incompatibleAlphabets
  else .ok modes

/-- Read a whole pattern: its tree, its modes and the widths of its groups. -/
def wholePattern : Parse (Pattern × Modes × List (Option Width)) := do
  lookAhead
  let r ← get
  let tree ← alternatives (2 * r.rest.length + 4) true (r.modes.contains 'x')
  let r ← get
  let modes ← (wholeModes r.isText r.modes : Except Error Modes)
  if !r.rest.isEmpty then failHere "unbalanced parenthesis" 0
  if let some (index, place) := r.conditions.find? fun (index, _) => r.widths.length ≤ index then
    throw (.place s!"invalid group reference {index}" place)
  (check r.groupWidth (modes.contains 't') tree : Except Error Unit)
  return (tree, modes, r.widths)

/-- The pattern that a text stands for; the text of a byte string has one character a byte. -/
def compile (isText : Bool) (modes : Modes) (source : List Char) : Except Error Compiled := do
  let (ts, dangling) := tokens 0 source
  let (tree, modes, widths) ←
    wholePattern.run' { rest := ts, finish := source.length, dangling, isText, modes }
  return { tree, modes, widths, isText }

end Pattern

end Attest

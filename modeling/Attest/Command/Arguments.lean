import Attest.Files.Tree

/-!
# Command lines

What the words of a command line mean is up to a package, which also looks whether the file of a
suite is there. With the one at hand, options may stand before and behind the file, one-letter
options may be joined, and the value of an option may be joined to it.

## Main definitions

* `Command` — what can be asked for
* `CommandReader` — a package for command lines
* `Command.ofArguments?` — the command of a command line, if it is well formed
* `Command.reader` — the package at hand
-/

namespace Attest

/-- The options of all commands. -/
inductive Switch where
  | help
  | version
  | quiet
  | output
  | reportDir
  | noReport
  | logLevel
  deriving DecidableEq, Repr, Inhabited

namespace Switch

def all : List Switch := [.help, .version, .quiet, .output, .reportDir, .noReport, .logLevel]

def longName : Switch → String
  | .help => "--help"
  | .version => "--version"
  | .quiet => "--quiet"
  | .output => "--output"
  | .reportDir => "--report-dir"
  | .noReport => "--no-report"
  | .logLevel => "--log-level"

def letter? : Switch → Option Char
  | .version => some 'v'
  | .quiet => some 'q'
  | .output => some 'o'
  | .reportDir => some 'r'
  | .logLevel => some 'l'
  | .help | .noReport => none

def takesValue : Switch → Bool
  | .output | .reportDir | .logLevel => true
  | _ => false

end Switch

/-- The options of a run. -/
structure RunOptions where
  suiteFile : String
  quiet : Bool := false
  output : String := "text"
  reportDir : String := "reports"
  noReport : Bool := false
  logLevel : String := "warning"
  deriving DecidableEq, Repr, Inhabited

/-- What can be asked for. -/
inductive Command where
  | help
  | version
  | info
  | validate (suiteFile : String)
  | run (options : RunOptions)
  deriving DecidableEq, Repr, Inhabited

/-- A package for command lines: the command that is asked for, if the words have a meaning and the
suite file is there. -/
abbrev CommandReader := FileNode → List String → Option Command

namespace Command

/-- The suite file of a command. -/
def suiteFile? : Command → Option String
  | .validate file => some file
  | .run o => some o.suiteFile
  | _ => none

/-- Options with their values, in order, and the words that are none. -/
structure Parsed where
  switches : List (Switch × String) := []
  words : List String := []
  deriving Repr, Inhabited

def Parsed.addSwitch (s : Switch) (value : String) (p : Parsed) : Parsed :=
  { p with switches := (s, value) :: p.switches }

def Parsed.addWord (word : String) (p : Parsed) : Parsed := { p with words := word :: p.words }

/-- What joined letters mean: options without a value, and at the end perhaps one with a value,
which is `none` if it is the next word. -/
def readLetters (known : List Switch) :
    List Char → Option (List Switch × Option (Switch × Option String))
  | [] => some ([], none)
  | c :: rest => do
    let s ← known.find? fun s => s.letter? == some c
    if s.takesValue then
      return ([], some (s, if rest.isEmpty then none else some (String.ofList rest)))
    let (others, last) ← readLetters known rest
    return (s :: others, last)

/-- A long option with the value that is joined to it by an equals sign. -/
def readLong (known : List Switch) (word : String) : Option (Switch × Option String) := do
  let name := word.toList.takeWhile (· ≠ '=')
  let s ← known.find? fun s => s.longName.toList == name
  let tail := word.toList.drop name.length
  return (s, if tail.isEmpty then none else some (String.ofList (tail.drop 1)))

def isLong (word : String) : Bool := word.startsWith "--"

def isOption (word : String) : Bool := word.startsWith "-" && word ≠ "-"

/-- Take the words apart; an option may be waiting for its value. Two dashes end the options; so
does the first other word, unless options may follow it. -/
def parse (known : List Switch) (mixed : Bool) : Option Switch → List String → Option Parsed
  | none, [] => some {}
  | some _, [] => none
  | some s, value :: rest => (parse known mixed none rest).map (·.addSwitch s value)
  | none, word :: rest =>
    if word = "--" then some { words := rest }
    else if isLong word then do
      let (s, value) ← readLong known word
      match s.takesValue, value with
      | true, some v => return (← parse known mixed none rest).addSwitch s v
      | true, none => parse known mixed (some s) rest
      | false, none => return (← parse known mixed none rest).addSwitch s ""
      | false, some _ => none
    else if isOption word then do
      let (flags, last) ← readLetters known (word.toList.drop 1)
      let p ← match last with
        | none => parse known mixed none rest
        | some (s, some v) => (parse known mixed none rest).map (·.addSwitch s v)
        | some (s, none) => parse known mixed (some s) rest
      return flags.foldr (fun s p => p.addSwitch s "") p
    else if mixed then (parse known mixed none rest).map (·.addWord word)
    else some { words := word :: rest }

namespace Parsed

def has (s : Switch) (p : Parsed) : Bool := p.switches.any (·.1 = s)

/-- The last value of an option. -/
def value (s : Switch) (default : String) (p : Parsed) : String :=
  ((p.switches.reverse.find? (·.1 = s)).map Prod.snd).getD default

end Parsed

def ofRun? (args : List String) : Option Command := do
  let p ← parse [.help, .quiet, .output, .reportDir, .noReport, .logLevel] true none args
  if p.has .help then return .help
  match p.words with
  | [file] =>
    return .run {
      suiteFile := file, quiet := p.has .quiet, output := p.value .output "text"
      reportDir := p.value .reportDir "reports", noReport := p.has .noReport
      logLevel := p.value .logLevel "warning" }
  | _ => none

def ofValidate? (args : List String) : Option Command := do
  let p ← parse [.help] true none args
  if p.has .help then return .help
  match p.words with
  | [file] => return .validate file
  | _ => none

def ofInfo? (args : List String) : Option Command := do
  let p ← parse [.help] true none args
  if p.has .help then return .help
  if p.words.isEmpty then return .info else none

/-- The command of a command line. -/
def ofArguments? (args : List String) : Option Command := do
  let p ← parse [.help, .version] false none args
  match (p.switches.head?).map Prod.fst with
  | some .version => return .version
  | some _ => return .help
  | none =>
    match p.words with
    | "run" :: rest => ofRun? rest
    | "validate" :: rest => ofValidate? rest
    | "info" :: rest => ofInfo? rest
    | _ => none

/-- A package for command lines. -/
def reader : CommandReader := fun files args => do
  let c ← ofArguments? args
  if c.suiteFile?.all files.reaches then some c else none

end Command

end Attest

import Attest.Command.Arguments
import Attest.Console.Terminal
import Attest.Query.Eval
import Attest.Suite.Load
import Attest.Suite.Run
import Attest.Yaml.Document

/-!
# Commands at work

What a command shows, which files it leaves, and the code it ends with. A fault ends a command at
once; what was shown before stays.

## Main definitions

* `Packages` — what comes from elsewhere
* `Surroundings` — the files, the name and the time of a run
* `Conclusion` — what comes of a command
* `Command.execute` — a command at work
* `executeWith`, `executeArguments` — a command line at work
-/

namespace Attest

/-- The packages that commands are put together from. -/
structure Packages where
  commands : CommandReader := Command.reader
  console : Console := Terminal.console {}
  yaml : YamlLoader := Yaml.loader
  queries : QueryEngine := Query.engine

/-- What a command finds. -/
structure Surroundings where
  files : FileNode
  runId : String
  start : Instant
  stop : Instant
  packages : Packages := {}

/-- What runs of suites take from there. -/
def Surroundings.host (s : Surroundings) : Host := ⟨s.files.read, s.packages.queries⟩

/-- A way to run suites. -/
abbrev Runner := Suite → Except Fault Report

/-- The way in which suites are run here and now. -/
def Surroundings.run (s : Surroundings) : Runner := Suite.run s.host s.runId s.start s.stop

/-- What a command has shown and made so far. -/
structure Screen where
  lines : List String := []
  files : FileNode
  /-- The files that were written, with their contents. -/
  written : List (Location × List UInt8) := []

/-- What comes of a command. -/
structure Conclusion where
  exitCode : Nat
  lines : List String
  files : FileNode
  written : List (Location × List UInt8) := []
  fault : Option Fault := none

namespace Command

/-- A command at work. -/
abbrev Work := ReaderT Packages (ExceptT Fault (StateM Screen))

def lift {α : Type} (result : Except Fault α) : Work α := fun _ => ExceptT.mk (pure result)

def showLines (lines : List String) : Work Unit :=
  modify fun s => { s with lines := s.lines ++ lines }

/-- Show what the console makes of something. -/
def print (how : Console → Except Fault (List String)) : Work Unit := do
  showLines (← lift (how (← read).console))

/-- Show a text with markup. -/
def say (text : String) : Work Unit := print (·.markup text)

def sayUnless (quiet : Bool) (text : String) : Work Unit := if quiet then pure () else say text

/-! ### Texts -/

def versionText : String := "🔗 jsonchain v0.1.0"

def infoText : String :=
  "
🔗 [bold]jsonchain[/bold] v0.1.0

Fluent query-and-assertion chains for JSON documents

[bold]Features:[/bold]
  • Slash paths with negative array indexes
  • Filters, typed assertions and cardinality checks
  • either / or_else / end alternatives
  • Declarative YAML check suites
  • Step-by-step failure traces and JSON run reports

[bold]Quick Start:[/bold]
  jsonchain run checks/suite.yaml
  jsonchain validate checks/suite.yaml
"

def helpText : String :=
  "Usage:
  jsonchain run <suite.yaml> [OPTIONS]
  jsonchain validate <suite.yaml>
  jsonchain info
  jsonchain --version

Options of run:
  -q, --quiet            Only show the final status
  -o, --output TEXT      Output format: text or json
  -r, --report-dir PATH  Directory to save JSON reports
  --no-report            Don't save a JSON report file
  -l, --log-level TEXT   Logging level: debug, info, warning or error"

/-! ### Suites -/

/-- Where the document of a check comes from. -/
def sourceText (c : CheckPlan) : String :=
  match c.documentFile, c.documentText with
  | some l, _ => "file: " ++ l.text
  | none, some _ => "text"
  | none, none => "inline"

def checkRow (c : CheckPlan) : List String :=
  [c.id, sourceText c, " → ".intercalate (c.steps.map (·.op.name))]

def checkTable (checks : List CheckPlan) : Table :=
  { title := "Checks", heads := ["ID", "Document", "Steps"], rows := checks.map checkRow }

def rejection : String := "\n" ++ styled "red" "❌ Validation failed:"

def reject (problems : Validation) : Work Nat := do
  say rejection
  say (← lift problems.text)
  return 1

def loadFrom (path : Location) : Work Loaded := do
  lift (Suite.load (← read).yaml (← get).files path)

def acceptance (suite : Suite) : String := styled "green" "✅ Valid suite:" ++ (" " ++ suite.name)

/-- Show what is in a suite. -/
def present (suite : Suite) : Work Nat := do
  say ("\n" ++ acceptance suite)
  say ("   Checks: " ++ toString suite.checks.length)
  say ""
  print (·.table (checkTable suite.checks))
  return 0

def validateFrom (path : Location) : Work Nat := do
  say ("\n📄 Validating: " ++ path.text)
  match ← loadFrom path with
  | .rejected problems => reject problems
  | .accepted suite => present suite

/-! ### Runs -/

/-- The names of the logging levels. -/
def logLevels : List String :=
  ["CRITICAL", "FATAL", "ERROR", "WARN", "WARNING", "INFO", "DEBUG", "NOTSET"]

def checkLogLevel (level : String) : Work Unit :=
  if logLevels.contains level.toUpper then pure ()
  else throw (.outOfRange ("Unknown level: " ++ quoteText level.toUpper))

/-- The place of the report of a run in a directory. -/
def reportPlace (directory : Location) (runId : String) : Location :=
  directory.join (.ofText (runId ++ ".json"))

def keepFile (place : Location) (data : List UInt8) : Work Unit := do
  let files ← lift ((← get).files.save place data)
  modify fun s => { s with files, written := s.written ++ [(place, data)] }

/-- Write a text to a file. The file is there before it turns out whether the text can be
written. -/
def writeText (place : Location) (text : String) : Work Unit :=
  match Encoding.encodeText text with
  | .ok data => keepFile place data
  | .error e => do
    keepFile place []
    throw (.unencodable e.message)

def saveReport (report : Report) (directory : Location) : Work Location := do
  let place := reportPlace directory report.runId
  writeText place (← lift (report.json (some 2)))
  return place

def statusLine (report : Report) : String :=
  Outcome.icon (report.status = .passed) ++ " " ++ toString report.passed ++ "/"
    ++ toString report.total ++ " checks passed"

/-- Show a report in the form that was asked for. -/
def showReport (o : RunOptions) (report : Report) : Work Unit :=
  if o.output = "json" then print (·.json report.data)
  else if o.quiet then say (statusLine report)
  else print (·.text ("\n" ++ report.summary))

def keepReport (o : RunOptions) (report : Report) : Work Unit :=
  if o.noReport then pure ()
  else do
    let place ← saveReport report (.ofText o.reportDir)
    sayUnless o.quiet ("\n📁 Report saved: " ++ place.text)

/-- Run the checks of a suite. -/
def runChecks (run : Runner) (o : RunOptions) (suite : Suite) : Work Nat := do
  sayUnless o.quiet
    ("   " ++ acceptance suite ++ " (" ++ toString suite.checks.length ++ " checks)")
  let report ← lift (run suite)
  showReport o report
  keepReport o report
  return if report.status = .passed then 0 else 1

def runFrom (run : Runner) (o : RunOptions) : Work Nat := do
  checkLogLevel o.logLevel
  sayUnless o.quiet ("\n📄 Loading suite: " ++ (Location.ofText o.suiteFile).text)
  match ← loadFrom (.ofText o.suiteFile) with
  | .rejected problems => reject problems
  | .accepted suite => runChecks run o suite

/-! ### Conclusions -/

def work (run : Runner) : Command → Work Nat
  | .help => do
    showLines (textLines helpText.toList)
    return 0
  | .version => do
    say versionText
    return 0
  | .info => do
    say infoText
    return 0
  | .validate file => validateFrom (.ofText file)
  | .run o => runFrom run o

/-- A command at work, to its end. -/
def execute (run : Runner) (s : Surroundings) (c : Command) : Conclusion :=
  let (result, screen) := work run c s.packages { files := s.files }
  let concluded : Conclusion :=
    { exitCode := 1, lines := screen.lines, files := screen.files, written := screen.written }
  match result with
  | .ok code => { concluded with exitCode := code }
  | .error fault => { concluded with fault := some fault }

end Command

/-- The code of a command line without a meaning, or with a suite file that is not there. -/
def usageCode : Nat := 2

/-- A command line at work, when suites are run in some way. -/
def executeWith (run : Runner) (s : Surroundings) (args : List String) : Conclusion :=
  match s.packages.commands s.files args with
  | some command => command.execute run s
  | none => { exitCode := usageCode, lines := [], files := s.files }

/-- A command line at work. -/
def executeArguments (s : Surroundings) (args : List String) : Conclusion :=
  executeWith s.run s args

end Attest

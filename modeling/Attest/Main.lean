import Attest.Command.Execute
import Attest.Report.RunId
import Std.Time.DateTime.Timestamp

/-!
# The program

The command line at work on the files below the working directory. All that is decided is decided
by `executeArguments`; here files are read and written, and the clock is asked.
-/

namespace Attest.Program

/-- The time of the system's clock. -/
def now : IO Instant := do
  let t ← Std.Time.Timestamp.now
  return { micros := t.toNanosecondsSinceUnixEpoch.val / 1000 }

def newRunId : IO String := do
  return runIdOf (← IO.getRandomBytes 16).toList

/-- The contents of a file, if it can be read. -/
def readFile? (path : Location) : IO (Option (String × List UInt8)) := do
  try
    let data ← IO.FS.readBinFile path.text
    return some (path.text, data.toList)
  catch _ => return none

/-- The files of documents that a suite needs. -/
def documentFiles (root : FileNode) (path : Location) : List Location :=
  match Suite.load Yaml.loader root path with
  | .ok (.accepted suite) => suite.checks.filterMap (·.documentFile)
  | _ => []

/-- The files that a command needs. -/
def gather (args : List String) : IO FileNode := do
  match (Command.ofArguments? args).bind Command.suiteFile? with
  | none => return .empty
  | some file =>
    let path := Location.ofText file
    let first := (← readFile? path).toList
    let others ← (documentFiles (.ofFiles first) path).filterMapM readFile?
    return .ofFiles (first ++ others)

/-- Write a file into its directory, which is made if it is not there. -/
def writeFile (path : Location) (data : List UInt8) : IO Unit := do
  IO.FS.createDirAll path.parent.text
  IO.FS.writeBinFile path.text ⟨data.toArray⟩

/-- Show what comes of a command, and leave its files. -/
def conclude (c : Conclusion) : IO UInt32 := do
  for line in c.lines do IO.println line
  for (path, data) in c.written do writeFile path data
  if let some fault := c.fault then
    IO.eprintln (fault.label ++ ": " ++ fault.message)
  if c.exitCode = usageCode then IO.eprintln Command.helpText
  return UInt32.ofNat c.exitCode

/-- The command line at work. It is run once for the time that it takes, and then with that time. -/
def perform (args : List String) : IO UInt32 := do
  let files ← gather args
  let runId ← newRunId
  let start ← now
  let timed ← IO.lazyPure fun _ =>
    executeArguments { files, runId, start, stop := start } args
  if timed.exitCode = usageCode then conclude timed
  else
    let stop ← now
    conclude (executeArguments { files, runId, start, stop } args)

end Attest.Program

def main (args : List String) : IO UInt32 := Attest.Program.perform args

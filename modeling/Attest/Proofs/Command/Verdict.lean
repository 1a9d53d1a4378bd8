import Attest.Proofs.Command.Work
import Attest.Proofs.Console.Terminal
import Attest.Proofs.Files.Saving
import Attest.Proofs.Report.Sending
import Attest.Proofs.Suite.Loading
import Attest.Proofs.Suite.Passing

/-!
# The exit code of a command line

A command with a suite file ends with the code 0 or 1, and the code is its verdict: of a run,
whether there is a suite in the file and all of its checks pass; of a validation, whether there is a
suite in the file. Nothing that is shown on the way has a say in it, as long as no name is taken for
markup, and as long as everything that is shown and kept can be sent. Half a pair of surrogates in
a document cannot: then the checks pass, and the run ends with a fault when its report is written.

That no check is run is said by putting something else in the place of what runs suites: it makes no
difference.

## Main definitions

* `Command.shownNames`, `Command.Shows` — the names that a command shows, and which of them it can
* `RunOptions.Feasible` — nothing keeps a run from returning and from being stored
* `RunOptions.Sends` — what is shown and kept of a report can be sent
* `RunOptions.Leaves` — what is left of a run

## Main results

* `Command.gives_present`, `Command.telling_reject` — a suite and problems are shown
* `Command.makes_runChecks`, `Command.fails_runChecks` — a run of a suite, to its end or to a fault
* `exit_code_is_verdict` — the exit codes of both commands
* `verdict_not_reached` — a suite that passes and is not reported so
-/

namespace Attest

variable {p : Packages} {s : Surroundings} {root : FileNode} {suite : Suite}
  {problems : Validation} {report : Report} {runner : Runner} {o : RunOptions} {path : Location}

/-- The place where the report of a run goes. -/
def RunOptions.reportPlace (o : RunOptions) (runId : String) : Location :=
  Command.reportPlace (.ofText o.reportDir) runId

namespace Command

/-! ### Names that are shown -/

/-- The names of a check that are shown with its suite. -/
def checkNames (c : CheckPlan) : List String := c.id :: c.documentFile.toList.map Location.text

/-- The paths and names that a command shows when something was loaded. A quiet run shows none. -/
def shownNames (s : Surroundings) (loaded : Loaded) : Command → List String
  | .validate file => (Location.ofText file).text ::
      loaded.suite?.toList.flatMap fun suite => suite.name :: suite.checks.flatMap checkNames
  | .run o => if o.quiet then [] else (Location.ofText o.suiteFile).text ::
      loaded.suite?.toList.flatMap fun suite =>
        suite.name :: if o.noReport then [] else [(o.reportPlace s.runId).text]
  | .help | .version | .info => []

/-- A text without brackets that can be sent. -/
def Shows (text : String) : Prop := Console.Plain text ∧ Unbroken text

instance (text : String) : Decidable (Shows text) :=
  inferInstanceAs (Decidable (Console.Plain text ∧ Unbroken text))

theorem Shows.append {first second : String} (hfirst : Shows first) (hsecond : Shows second) :
    Shows (first ++ second) :=
  ⟨hfirst.1.append hsecond.1, hfirst.2.append hsecond.2⟩

theorem shows_natural (n : Nat) : Shows (toString n) :=
  ⟨Console.plain_natural n, unbroken_natural n⟩

theorem shows_icon (passed : Bool) : Shows (Outcome.icon passed) := by
  cases passed <;> decide

theorem shows_opName (op : Op) : Shows op.name := by
  cases op <;> decide

theorem shows_joined {sep : String} {texts : List String} (hsep : Shows sep)
    (h : ∀ text ∈ texts, Shows text) : Shows (sep.intercalate texts) := by
  refine ⟨fun hc => ?_, hsep.2.joined fun text htext => (h text htext).2⟩
  rcases mem_joined hc with hc | ⟨text, htext, hc⟩
  · exact hsep.1 hc
  · exact (h text htext).1 hc

theorem shows_sourceText {c : CheckPlan} (h : ∀ name ∈ checkNames c, Shows name) :
    Shows (sourceText c) := by
  cases hfile : c.documentFile with
  | some l =>
    simp only [sourceText, hfile]
    exact Shows.append (by decide) (h _ (by simp [checkNames, hfile]))
  | none =>
    cases htext : c.documentText <;> simp only [sourceText, hfile, htext] <;> decide

/-- The texts of a row. -/
theorem shows_checkRow {c : CheckPlan} (h : ∀ name ∈ checkNames c, Shows name) :
    ∀ text ∈ checkRow c, Shows text := by
  simp only [checkRow, List.forall_mem_cons]
  exact ⟨h _ (List.mem_cons_self ..), shows_sourceText h,
    shows_joined (by decide) (List.forall_mem_map.mpr fun step _ => shows_opName step.op),
    List.forall_mem_nil _⟩

section Printing

variable (hprints : p.console.Prints)
include hprints

theorem gives_say {text : String} (h : Shows text) : Gives p root (say text) () :=
  gives_print (hprints.plain text h.1 h.2)

/-- The line that a suite is accepted with, between two other texts. -/
theorem gives_say_acceptance {before after : String} (hbefore : Console.Bare before)
    (hsent : Unbroken before) (hname : Shows suite.name) (hafter : Shows after) :
    Gives p root (say (before ++ (acceptance suite ++ after))) () := by
  have hrest : Shows (" " ++ suite.name ++ after) := (Shows.append (by decide) hname).append hafter
  have hstyled : Unbroken (styled "green" "✅ Valid suite:") := by decide
  rw [acceptance, String.append_assoc]
  exact gives_print (hprints.styled _ _ _ hbefore (by decide) hrest.1
    (hsent.append (hstyled.append hrest.2)))

/-! ### Suites and problems -/

/-- A suite is shown with the code 0. -/
theorem gives_present (hname : Shows suite.name)
    (h : ∀ c ∈ suite.checks, ∀ name ∈ checkNames c, Shows name) :
    Gives p root (present suite) 0 := by
  have haccepted : Gives p root (say ("\n" ++ acceptance suite)) () := by
    rw [← String.append_empty (s := acceptance suite)]
    exact gives_say_acceptance hprints (by decide) (by decide) hname (by decide)
  have hcount : Gives p root (say ("   Checks: " ++ toString suite.checks.length)) () :=
    gives_say hprints (Shows.append (by decide) (shows_natural _))
  have hblank : Gives p root (say "") () := gives_say hprints (by decide)
  have htable : Gives p root (print (·.table (checkTable suite.checks))) () := by
    refine gives_print (hprints.table _ ?_)
    simp only [Table.texts, checkTable, List.cons_append, List.nil_append, List.forall_mem_cons,
      List.forall_mem_flatten, List.forall_mem_map]
    refine ⟨by decide, by decide, by decide, by decide, fun c hc => ?_⟩
    exact shows_checkRow (h c hc)
  exact haccepted.bind (hcount.bind (hblank.bind (htable.bind (gives_pure 0))))

end Printing

/-- Whatever is wrong with a suite, and whatever becomes of the text that says so, the code is 1. -/
theorem telling_reject : Telling p root (reject problems) (· = 1) :=
  (telling_print (·.markup rejection)).bind fun _ _ => (telling_lift _).bind fun text _ =>
    (telling_print (·.markup text)).bind fun _ _ => (gives_pure 1).telling rfl

theorem loadFrom_apply (path : Location) (p : Packages) (screen : Screen) :
    loadFrom path p screen = (Suite.load p.yaml screen.files path, screen) := rfl

theorem tells_loadFrom {loaded : Loaded} (h : Suite.load p.yaml root path = .ok loaded) :
    Tells p root (loadFrom path) (.ok loaded) [] := by
  intro screen hscreen
  rw [loadFrom_apply, hscreen, h, List.append_nil, ← hscreen]

theorem gives_loadFrom {loaded : Loaded} (h : Suite.load p.yaml root path = .ok loaded) :
    Gives p root (loadFrom path) loaded := ⟨[], tells_loadFrom h⟩

theorem telling_loadFrom {loaded : Loaded} (h : Suite.load p.yaml root path = .ok loaded) :
    Telling p root (loadFrom path) (· = loaded) := (gives_loadFrom h).telling rfl

/-! ### Runs -/

theorem tells_checkLogLevel {level : String} (h : logLevels.contains level.toUpper = true) :
    Tells p root (checkLogLevel level) (.ok ()) [] := by
  rw [checkLogLevel, if_pos h]
  exact tells_pure ()

theorem shows_statusLine (report : Report) : Shows (statusLine report) :=
  ((((shows_icon _).append (by decide)).append (shows_natural _)).append (by decide)).append
    (shows_natural _) |>.append (by decide)

/-- A file that can be written is kept. -/
theorem makes_keepFile {place : Location} {data : List UInt8} {after : FileNode}
    (h : root.save place data = .ok after) :
    Makes p root (keepFile place data) () after [(place, data)] := by
  refine ⟨[], fun screen hscreen => ?_⟩
  have hget : (get : Work Screen) p screen = (.ok screen, screen) := rfl
  have hlift : (lift (screen.files.save place data)) p screen = (.ok after, screen) := by
    rw [hscreen, h]
    rfl
  rw [keepFile, bind_apply, hget]
  dsimp only
  rw [bind_apply, hlift, List.append_nil]
  rfl

theorem makes_saveReport {directory : Location} {text : String} {data : List UInt8}
    {after : FileNode} (h : report.json (some 2) = .ok text)
    (hdata : Encoding.encodeText text = .ok data)
    (hsave : root.save (reportPlace directory report.runId) data = .ok after) :
    Makes p root (saveReport report directory) (reportPlace directory report.runId) after
      [(reportPlace directory report.runId, data)] := by
  have hwrite : Makes p root (writeText (reportPlace directory report.runId) text) () after
      [(reportPlace directory report.runId, data)] := by
    rw [writeText, hdata]
    exact makes_keepFile hsave
  exact (gives_lift h).bind_makes (hwrite.bind_gives (gives_pure _))

end Command

/-- What keeps a run of a suite from its end is not there: the suite can be digested, its checks can
be counted, the clock shows a time, and a report that is to be kept can be written to its place. -/
structure RunOptions.Feasible (s : Surroundings) (o : RunOptions) (suite : Suite) : Prop where
  returns : Succeeds (s.run suite)
  count : suite.checks.length < digitBound
  start : s.start.timestamp.isValid = true
  stop : s.stop.timestamp.isValid = true
  writable : o.noReport = false → ∀ data, Succeeds (s.files.save (o.reportPlace s.runId) data)

/-- What a run shows and keeps of its report can be sent: the summary, unless the run is quiet, and
the report as JSON, if it is shown or kept. -/
structure RunOptions.Sends (o : RunOptions) (report : Report) : Prop where
  summary : o.quiet = false → o.output ≠ "json" → Unbroken report.summary
  json : o.output = "json" ∨ o.noReport = false →
    ∀ text, report.json (some 2) = .ok text → Unbroken text

/-- What is shown of a report that can be sent as JSON can be sent. -/
theorem RunOptions.sends_of_json {o : RunOptions} {report : Report} {text : String}
    (h : report.json (some 2) = .ok text) (hunbroken : Unbroken text) : o.Sends report where
  summary _ _ := Report.unbroken_summary (Report.sendable_of_json h hunbroken)
  json _ text' h' := by
    cases h.symm.trans h'
    exact hunbroken

/-- What is left of a run: nothing if no report was to be kept, or else one file with the report. -/
structure RunOptions.Leaves (s : Surroundings) (o : RunOptions) (r : Report) (left : FileNode)
    (written : List (Location × List UInt8)) : Prop where
  nothing : o.noReport = true → left = s.files ∧ written = []
  report : o.noReport = false → ∃ data, written = [(o.reportPlace s.runId, data)] ∧
    r.StoredAs data ∧ FileNode.Saved s.files (o.reportPlace s.runId) data left

namespace Command

/-- A report that can be written is shown in any form. -/
theorem gives_showReport (hprints : p.console.Prints) {text : String}
    (h : report.json (some 2) = .ok text) (hsends : o.Sends report) :
    Gives p root (showReport o report) () := by
  rw [showReport]
  split
  · next hjson =>
    exact gives_print (hprints.json _ text h (hsends.json (.inl hjson) text h))
  · next hjson =>
    split
    · exact gives_say hprints (shows_statusLine report)
    · next hquiet =>
      have hunbroken := hsends.summary (by simpa using hquiet) hjson
      exact gives_print (hprints.text _ (Unbroken.append (by decide) hunbroken))

/-- The report of a run is kept as it was asked for. -/
theorem makes_keepReport (hprints : p.console.Prints) (hfeasible : o.Feasible s suite)
    (hreports : Suite.Reports s.host s.runId s.start s.stop suite report)
    (hversion : suite.version.natAbs < digitBound) (hsends : o.Sends report)
    (hplace : o.quiet = false → o.noReport = false → Shows (o.reportPlace s.runId).text) :
    ∃ left written, Makes p s.files (keepReport o report) () left written ∧
      o.Leaves s report left written := by
  cases hkeep : o.noReport with
  | true =>
    have hleaves : o.Leaves s report s.files [] := by
      refine ⟨fun _ => ⟨rfl, rfl⟩, fun hfalse => ?_⟩
      cases hkeep.symm.trans hfalse
    refine ⟨s.files, [], ?_, hleaves⟩
    rw [keepReport, if_pos hkeep]
    exact (gives_pure ()).makes
  | false =>
    obtain ⟨text, htext, hstored⟩ :=
      hreports.stored hversion hfeasible.count hfeasible.start hfeasible.stop
    have hdata : Encoding.encodeText text = .ok text.toUTF8.toList :=
      encodeText_eq_ok_iff.mpr ⟨hsends.json (.inr hkeep) text htext, rfl⟩
    obtain ⟨left, hsave⟩ := hfeasible.writable hkeep text.toUTF8.toList
    have hsaved := FileNode.saved_of_save hsave
    have hleaves : o.Leaves s report left [(o.reportPlace s.runId, text.toUTF8.toList)] := by
      refine ⟨fun htrue => ?_, fun _ => ⟨_, rfl, hstored, hsaved⟩⟩
      cases hkeep.symm.trans htrue
    refine ⟨left, _, ?_, hleaves⟩
    have hnone : ¬ o.noReport = true := by simp [hkeep]
    have hmade : Makes p s.files (saveReport report (.ofText o.reportDir)) _ left _ :=
      makes_saveReport htext hdata (hreports.runId.symm ▸ hsave)
    rw [hreports.runId] at hmade
    rw [keepReport, if_neg hnone]
    exact hmade.bind_gives (gives_sayUnless fun hquiet =>
      gives_say hprints (Shows.append (by decide) (hplace hquiet hkeep)))

/-- **A run of a suite** comes to its end, and its code says whether the suite passes. -/
theorem makes_runChecks (hprints : p.console.Prints) (hfeasible : o.Feasible s suite)
    (hrun : s.run suite = .ok report) (hsends : o.Sends report)
    (hname : o.quiet = false → Shows suite.name)
    (hplace : o.quiet = false → o.noReport = false → Shows (o.reportPlace s.runId).text) :
    ∃ left written,
      Makes p s.files (runChecks s.run o suite) (if report.status = .passed then 0 else 1)
        left written ∧
      o.Leaves s report left written := by
  have hreports := Suite.reports_of_run hrun
  have hversion := Suite.version_lt_of_run hrun
  obtain ⟨text, htext, _⟩ :=
    hreports.stored hversion hfeasible.count hfeasible.start hfeasible.stop
  obtain ⟨left, written, hkept, hleaves⟩ :=
    makes_keepReport hprints hfeasible hreports hversion hsends hplace
  refine ⟨left, written, ?_, hleaves⟩
  have haccepted : Gives p s.files (sayUnless o.quiet ("   " ++ acceptance suite ++ " ("
      ++ toString suite.checks.length ++ " checks)")) () := by
    refine gives_sayUnless fun hquiet => ?_
    simp only [String.append_assoc]
    exact gives_say_acceptance hprints (by decide) (by decide) (hname hquiet)
      (Shows.append (by decide) (Shows.append (shows_natural _) (by decide)))
  exact haccepted.bind_makes ((gives_lift hrun).bind_makes
    ((gives_showReport hprints htext hsends).bind_makes
      (hkept.bind_gives (gives_pure _))))

/-! ### Runs that show and keep what cannot be sent -/

/-- A report that cannot be sent is not kept. -/
theorem fails_keepReport {text : String} (hkeep : o.noReport = false)
    (htext : report.json (some 2) = .ok text) (hbroken : ¬ Unbroken text) :
    Fails p root (keepReport o report) := by
  have hwrite (place : Location) : Fails p root (writeText place text) := by
    rw [writeText]
    cases hdata : Encoding.encodeText text with
    | ok data => exact absurd (encodeText_eq_ok_iff.mp hdata).1 hbroken
    | error e => exact fails_throw (keepFile place []) _
  have hsave : Fails p root (saveReport report (.ofText o.reportDir)) := by
    refine (telling_lift (report.json (some 2))).bind_fails fun text' htext' => ?_
    cases htext.symm.trans htext'
    exact (hwrite _).bind _
  rw [keepReport, if_neg (by simp [hkeep])]
  exact hsave.bind _

theorem telling_showReport (o : RunOptions) (report : Report) :
    Telling p root (showReport o report) fun _ => True := by
  rw [showReport]
  split
  · exact telling_print _
  · split
    · exact telling_print (·.markup (statusLine report))
    · exact telling_print _

theorem fails_runChecks {text : String} (hrun : runner suite = .ok report)
    (hkeep : o.noReport = false) (htext : report.json (some 2) = .ok text)
    (hbroken : ¬ Unbroken text) : Fails p root (runChecks runner o suite) := by
  refine (telling_sayUnless o.quiet _).bind_fails fun _ _ => ?_
  refine (telling_lift (runner suite)).bind_fails fun report' hreport => ?_
  cases hrun.symm.trans hreport
  refine (telling_showReport o report).bind_fails fun _ _ => ?_
  exact (fails_keepReport hkeep htext hbroken).bind _

/-- If no report is to be kept, the code is that of the report, unless a fault ends the run. -/
theorem telling_runChecks (hrun : runner suite = .ok report) (hkeep : o.noReport = true) :
    Telling p root (runChecks runner o suite)
      (· = if report.status = .passed then 0 else 1) := by
  have hkept : Telling p root (keepReport o report) fun _ => True := by
    rw [keepReport, if_pos hkeep]
    exact (gives_pure ()).telling trivial
  refine (telling_sayUnless o.quiet _).bind fun _ _ => ?_
  refine (telling_lift (runner suite)).bind fun report' hreport => ?_
  cases hrun.symm.trans hreport
  exact (telling_showReport o report).bind fun _ _ => hkept.bind fun _ _ =>
    (gives_pure _).telling rfl

/-! ### Without a suite -/

theorem telling_checkLogLevel (level : String) :
    Telling p root (checkLogLevel level) fun _ => True := by
  rw [checkLogLevel]
  split
  · exact (gives_pure ()).telling trivial
  · exact ⟨_, _, tells_throw _, nofun⟩

/-- A run does not get to the checks if there is no suite: it does not matter how suites are run. -/
theorem runFrom_of_rejected
    (h : Suite.load p.yaml root (.ofText o.suiteFile) = .ok (.rejected problems))
    (runner runner' : Runner) {screen : Screen} (hscreen : screen.files = root) :
    runFrom runner o p screen = runFrom runner' o p screen := by
  refine (telling_checkLogLevel o.logLevel).bind_congr (fun _ screen hscreen => ?_) hscreen
  refine (telling_sayUnless o.quiet _).bind_congr (fun _ screen hscreen => ?_) hscreen
  rw [bind_apply, bind_apply, loadFrom_apply, hscreen, h]

/-- Without a suite, the code of a command is 1. -/
theorem telling_work_of_rejected {c : Command} {file : String} (hfile : c.suiteFile? = some file)
    (hload : Suite.load p.yaml root (.ofText file) = .ok (.rejected problems)) :
    Telling p root (work runner c) (· = 1) := by
  have hloaded := telling_loadFrom hload
  cases c with
  | help | version | info => cases hfile
  | validate file' =>
    cases hfile
    refine (telling_print _).bind fun _ _ => hloaded.bind fun _ hrejected => ?_
    rw [hrejected]
    exact telling_reject
  | run o =>
    cases hfile
    refine (telling_checkLogLevel o.logLevel).bind fun _ _ => ?_
    refine (telling_sayUnless o.quiet _).bind fun _ _ => hloaded.bind fun _ hrejected => ?_
    rw [hrejected]
    exact telling_reject

/-! ### Commands -/

theorem execute_of_tells {c : Command} {r : Except Fault Nat} {lines : List String}
    (h : Tells s.packages s.files (work runner c) r lines) :
    execute runner s c = match r with
      | .ok code => { exitCode := code, lines := lines, files := s.files }
      | .error fault =>
        { exitCode := 1, lines := lines, files := s.files, fault := some fault } := by
  rw [execute, h { files := s.files } rfl]
  cases r with
  | ok code => rfl
  | error fault => rfl

theorem execute_of_makes {c : Command} {code : Nat} {left : FileNode}
    {written : List (Location × List UInt8)}
    (h : Makes s.packages s.files (work runner c) code left written) :
    (execute runner s c).exitCode = code ∧ (execute runner s c).fault = none ∧
      (execute runner s c).files = left ∧ (execute runner s c).written = written := by
  obtain ⟨lines, h⟩ := h
  rw [execute, h { files := s.files } rfl]
  exact ⟨rfl, rfl, rfl, rfl⟩

/-- A command that only shows something makes no files, and a fault that ends it has a code. -/
theorem execute_of_telling {c : Command} {P : Nat → Prop}
    (h : Telling s.packages s.files (work runner c) P) :
    ((execute runner s c).exitCode = 1 ∨ P (execute runner s c).exitCode) ∧
      (execute runner s c).files = s.files ∧ (execute runner s c).written = [] := by
  obtain ⟨r, lines, h, hcode⟩ := h
  rw [execute_of_tells h]
  cases r with
  | error fault => exact ⟨.inl rfl, rfl, rfl⟩
  | ok code => exact ⟨.inr (hcode code rfl), rfl, rfl⟩

theorem execute_of_fails {c : Command} (h : Fails s.packages s.files (work runner c)) :
    (execute runner s c).exitCode = 1 ∧ (execute runner s c).fault ≠ none := by
  obtain ⟨fault, after, h⟩ := h { files := s.files } rfl
  rw [execute, h]
  exact ⟨rfl, Option.some_ne_none fault⟩

theorem execute_congr {c : Command}
    (h : work runner c s.packages { files := s.files }
      = work runner' c s.packages { files := s.files }) :
    execute runner s c = execute runner' s c := by
  rw [execute, execute, h]

/-! ### The verdict -/

/-- If there is a suite to be run, nothing keeps it from that. -/
def Feasible (s : Surroundings) (loaded : Loaded) : Command → Prop
  | .run o => logLevels.contains o.logLevel.toUpper = true ∧
      ∀ suite ∈ loaded.suite?, o.Feasible s suite
  | .validate _ | .help | .version | .info => True

theorem execute_validate {file : String} {loaded : Loaded} (runner : Runner)
    (hprints : s.packages.console.Prints)
    (hload : Suite.load s.packages.yaml s.files (.ofText file) = .ok loaded)
    (hshown : ∀ name ∈ (Command.validate file).shownNames s loaded, Shows name) :
    let c := execute runner s (.validate file)
    (c.exitCode = 0 ∨ c.exitCode = 1) ∧
      (c.exitCode = 0 ↔ ∃ suite, loaded = .accepted suite) ∧
      c.files = s.files ∧ c.written = [] := by
  intro c
  obtain ⟨hpath, hsuite⟩ := List.forall_mem_cons.mp hshown
  have hheading : Gives s.packages s.files
      (say ("\n📄 Validating: " ++ (Location.ofText file).text)) () :=
    gives_say hprints (Shows.append (by decide) hpath)
  cases loaded with
  | accepted suite =>
    simp only [Loaded.suite?, Option.toList_some, List.flatMap_singleton, List.forall_mem_cons,
      List.forall_mem_flatMap] at hsuite
    obtain ⟨hcode, _, hfiles, hwritten⟩ := execute_of_makes (c := .validate file)
      (hheading.bind ((gives_loadFrom hload).bind
        (gives_present hprints hsuite.1 hsuite.2))).makes
    exact ⟨.inl hcode, iff_of_true hcode ⟨suite, rfl⟩, hfiles, hwritten⟩
  | rejected problems =>
    have hwork : Telling s.packages s.files (work runner (.validate file)) (· = 1) :=
      telling_work_of_rejected rfl hload
    obtain ⟨hcode, hfiles, hwritten⟩ := execute_of_telling hwork
    have hone : c.exitCode = 1 := hcode.elim id id
    refine ⟨.inr hone, iff_of_false (fun hzero => ?_) ?_, hfiles, hwritten⟩
    · cases hone.symm.trans hzero
    · rintro ⟨_, ⟨⟩⟩

/-- A run without a suite ends with the code 1, and it does not matter how suites are run. -/
theorem execute_run_of_rejected (runner : Runner)
    (hload : Suite.load s.packages.yaml s.files (.ofText o.suiteFile) = .ok (.rejected problems)) :
    let c := execute runner s (.run o)
    c.exitCode = 1 ∧ (∀ runner', execute runner' s (.run o) = c) ∧ c.files = s.files ∧
      c.written = [] := by
  intro c
  have hwork : Telling s.packages s.files (work runner (.run o)) (· = 1) :=
    telling_work_of_rejected rfl hload
  obtain ⟨hcode, hfiles, hwritten⟩ := execute_of_telling hwork
  exact ⟨hcode.elim id id, fun runner' => execute_congr (runFrom_of_rejected hload _ _ rfl),
    hfiles, hwritten⟩

/-- The names that a run with a suite shows, unless it is quiet. -/
theorem shown_of_run (hshown : ∀ name ∈ (Command.run o).shownNames s (.accepted suite), Shows name)
    (hquiet : o.quiet = false) : Shows (Location.ofText o.suiteFile).text ∧ Shows suite.name ∧
      (o.noReport = false → Shows (o.reportPlace s.runId).text) := by
  simp only [shownNames, hquiet, Bool.false_eq_true, if_false, Loaded.suite?, Option.toList_some,
    List.flatMap_singleton, List.forall_mem_cons] at hshown
  obtain ⟨hpath, hname, hplace⟩ := hshown
  refine ⟨hpath, hname, fun hkeep => hplace _ ?_⟩
  simp [hkeep]

section Accepted

variable (hload : Suite.load s.packages.yaml s.files (.ofText o.suiteFile) = .ok (.accepted suite))
include hload

/-- A run with a suite comes to its end if what it shows and keeps can be sent. -/
theorem execute_run_of_sends (hprints : s.packages.console.Prints)
    (hshown : ∀ name ∈ (Command.run o).shownNames s (.accepted suite), Shows name)
    (hfeasible : (Command.run o).Feasible s (.accepted suite))
    (hrun : s.run suite = .ok report) (hsends : o.Sends report) :
    let c := execute s.run s (.run o)
    c.exitCode = (if report.status = .passed then 0 else 1) ∧ c.fault = none ∧
      o.Leaves s report c.files c.written := by
  intro c
  obtain ⟨hlevel, hsuite⟩ := hfeasible
  obtain ⟨left, written, hmakes, hleaves⟩ := makes_runChecks hprints (hsuite suite rfl) hrun hsends
    (fun hquiet => (shown_of_run hshown hquiet).2.1) fun hquiet => (shown_of_run hshown hquiet).2.2
  have hknown : Gives s.packages s.files (checkLogLevel o.logLevel) () :=
    ⟨[], tells_checkLogLevel hlevel⟩
  have hheading : Gives s.packages s.files (sayUnless o.quiet
      ("\n📄 Loading suite: " ++ (Location.ofText o.suiteFile).text)) () :=
    gives_sayUnless fun hquiet =>
      gives_say hprints (Shows.append (by decide) (shown_of_run hshown hquiet).1)
  obtain ⟨hcode, hfault, hfiles, hwritten⟩ := execute_of_makes (c := .run o)
    (hknown.bind_makes (hheading.bind_makes ((gives_loadFrom hload).bind_makes hmakes)))
  exact ⟨hcode, hfault, hfiles.symm ▸ hwritten.symm ▸ hleaves⟩

/-- A run whose report is to be kept and cannot be sent ends with a fault, on whatever console. -/
theorem execute_run_of_broken {text : String} (hrun : s.run suite = .ok report)
    (hkeep : o.noReport = false) (htext : report.json (some 2) = .ok text)
    (hbroken : ¬ Unbroken text) :
    let c := execute s.run s (.run o)
    c.exitCode = 1 ∧ c.fault ≠ none := by
  refine execute_of_fails (c := .run o) ?_
  refine (telling_checkLogLevel o.logLevel).bind_fails fun _ _ => ?_
  refine (telling_sayUnless o.quiet _).bind_fails fun _ _ => ?_
  refine (telling_loadFrom hload).bind_fails fun _ haccepted => ?_
  rw [haccepted]
  exact fails_runChecks hrun hkeep htext hbroken

/-- A run that keeps no report has its code, or that of a fault. -/
theorem execute_run_of_noReport (hrun : s.run suite = .ok report) (hkeep : o.noReport = true) :
    let c := execute s.run s (.run o)
    c.exitCode = 1 ∨ c.exitCode = if report.status = .passed then 0 else 1 := by
  refine (execute_of_telling (c := .run o)
    (P := (· = if report.status = .passed then 0 else 1)) ?_).1
  refine (telling_checkLogLevel o.logLevel).bind fun _ _ => ?_
  refine (telling_sayUnless o.quiet _).bind fun _ _ => ?_
  refine (telling_loadFrom hload).bind fun _ haccepted => ?_
  rw [haccepted]
  exact telling_runChecks hrun hkeep

/-- **The code of a run with a suite** is that of its report, unless something cannot be sent. If
that is the report that is to be kept, the code is 1. -/
theorem execute_run_of_accepted (hprints : s.packages.console.Prints)
    (hshown : ∀ name ∈ (Command.run o).shownNames s (.accepted suite), Shows name)
    (hfeasible : (Command.run o).Feasible s (.accepted suite)) (hrun : s.run suite = .ok report) :
    let c := execute s.run s (.run o)
    (c.exitCode = 0 ∨ c.exitCode = 1) ∧ (c.exitCode = 0 → suite.Passes s.host) ∧
      (o.Sends report → (c.exitCode = 0 ↔ suite.Passes s.host) ∧ c.fault = none ∧
        o.Leaves s report c.files c.written) ∧
      (o.noReport = false → ¬ o.Sends report → c.exitCode = 1 ∧ c.fault ≠ none) := by
  intro c
  have hpassed : report.status = .passed ↔ suite.Passes s.host :=
    (Suite.reports_of_run hrun).passed_iff
  have hbroken : o.noReport = false → ¬ o.Sends report → c.exitCode = 1 ∧ c.fault ≠ none := by
    intro hkeep hsends
    have hreports := Suite.reports_of_run hrun
    obtain ⟨text, htext, _⟩ := hreports.stored (Suite.version_lt_of_run hrun)
      (hfeasible.2 suite rfl).count (hfeasible.2 suite rfl).start (hfeasible.2 suite rfl).stop
    exact execute_run_of_broken hload hrun hkeep htext fun hunbroken =>
      hsends (RunOptions.sends_of_json htext hunbroken)
  have hcode : c.exitCode = 1 ∨ c.exitCode = if report.status = .passed then 0 else 1 := by
    by_cases hsends : o.Sends report
    · exact .inr (execute_run_of_sends hload hprints hshown hfeasible hrun hsends).1
    · cases hkeep : o.noReport with
      | true => exact execute_run_of_noReport hload hrun hkeep
      | false => exact .inl (hbroken hkeep hsends).1
  refine ⟨?_, fun hzero => ?_, fun hsends => ?_, hbroken⟩
  · rcases hcode with hcode | hcode
    · exact .inr hcode
    · rw [hcode]
      split <;> simp
  · rw [← hpassed]
    rcases hcode with hcode | hcode
    · cases hcode.symm.trans hzero
    · by_contra hstatus
      rw [if_neg hstatus] at hcode
      cases hcode.symm.trans hzero
  · obtain ⟨hcode, hfault, hleaves⟩ :=
      execute_run_of_sends hload hprints hshown hfeasible hrun hsends
    refine ⟨?_, hfault, hleaves⟩
    rw [hcode, ← hpassed]
    split <;> simp_all

end Accepted

end Command

theorem executeWith_of_arguments {s : Surroundings} {args : List String} {c : Command}
    (hargs : s.packages.commands s.files args = some c) (runner : Runner) :
    executeWith runner s args = c.execute runner s := by
  simp only [executeWith, hargs]

/-- The directory with a file `s.yaml`, and a clock. -/
def surroundingsOf (text : String) : Surroundings where
  files := Suite.alone text.toUTF8.data.toList
  runId := "r"
  start := ⟨0⟩
  stop := ⟨1000⟩

/-- There is a suite of some kind in the file. -/
def accepts (s : Surroundings) (P : Suite → Bool) : Bool :=
  match Suite.load s.packages.yaml s.files (.ofText "s.yaml") with
  | .ok (.accepted suite) => P suite
  | _ => false

theorem exists_of_accepts {P : Suite → Bool} (h : accepts s P = true) :
    ∃ suite, Suite.load s.packages.yaml s.files (.ofText "s.yaml") = .ok (.accepted suite) ∧
      P suite = true := by
  unfold accepts at h
  split at h
  · next suite hload => exact ⟨suite, hload, h⟩
  · cases h

/-- A suite with a plain name that is run and passes. -/
def passesPlainly (s : Surroundings) (suite : Suite) : Bool :=
  decide (Command.Shows suite.name) && decide (suite.checks.length < digitBound)
    && (s.run suite).isOk
    && suite.checks.all fun c => (Suite.outcomesOf s.host suite.limit c).all (·.passed)

theorem passesPlainly_iff : passesPlainly s suite = true ↔
    Command.Shows suite.name ∧ suite.checks.length < digitBound ∧ Succeeds (s.run suite) ∧
      suite.Passes s.host := by
  have hsucceeds : (s.run suite).isOk = true ↔ Succeeds (s.run suite) := by
    cases s.run suite with
    | ok report => exact iff_of_true rfl ⟨report, rfl⟩
    | error fault => exact iff_of_false nofun nofun
  simp only [passesPlainly, Bool.and_eq_true, decide_eq_true_eq, List.all_eq_true, hsucceeds,
    and_assoc]
  exact Iff.rfl

/-- A suite that says of a number that it is one. -/
def numberText : String :=
  "version: 1\nname: s\nchecks:\n- id: a\n  document: 1\n  steps:\n  - is_number\n"

/-- A suite that says of a text with half a pair of surrogates that it is a text. -/
def halfText : String :=
  "version: 1\nname: s\nchecks:\n- id: a\n  document_text: '\"\\ud800\"'\n  steps:\n  - is_string\n"

/-- What the checks of a suite show can be sent. -/
def showsWhole (s : Surroundings) (suite : Suite) : Bool :=
  decide (∀ c ∈ suite.checks, ∀ outcome ∈ Suite.outcomesOf s.host suite.limit c,
    ∀ candidate ∈ outcome.candidates, Unbroken candidate)

end Attest

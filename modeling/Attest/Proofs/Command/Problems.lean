import Attest.Proofs.Command.Verdict

/-!
# What is shown of the problems with a suite

The text that tells of all problems with a suite has in it, for each of them, its place, what it
is, the value that was found and what to do. The commands show this text with markup, though nothing
keeps the texts in it from having brackets: some messages of the validator have, and so may keys and
values. What becomes of the text is up to the console. A text that means nothing to it is shown in
full. Of a text with a tag in it, a part is left out without a word, or a fault comes in the place
of the whole text.

## Main definitions

* `SuiteError.ToldIn` — a text that tells all of a problem
* `Conclusion.stdout` — what is printed
* `Command.opening` — the lines before the problems

## Main results

* `Validation.told_of_text` — the text of all problems tells of each of them
* `problems_shown_iff` — when that text is shown in full
* `tagged_of_pairErrors` — problems that are never shown in full
* `problems_not_shown` — a file whose problem is not
-/

namespace Attest

/-! ### Texts of problems -/

/-- A text in which everything about a problem is told. -/
structure SuiteError.ToldIn (e : SuiteError) (text : List Char) : Prop where
  place : ∃ label, e.place.label = .ok label ∧ label.toList <:+: text
  message : e.message.toList <:+: text
  value : ∀ v ∈ e.value, ∃ shown, v.display = .ok shown ∧ shown.toList <:+: text
  suggestion : ∀ hint ∈ e.suggestion, hint.toList <:+: text

namespace SuiteError

variable {e : SuiteError} {text : String} {first second : List Char}

theorem ToldIn.mono (h : e.ToldIn first) (hpart : first <:+: second) : e.ToldIn second := by
  obtain ⟨label, hlabel, hplace⟩ := h.place
  refine ⟨⟨label, hlabel, hplace.trans hpart⟩, h.message.trans hpart, fun v hv => ?_,
    fun hint hhint => (h.suggestion hint hhint).trans hpart⟩
  obtain ⟨shown, hshown, hvalue⟩ := h.value v hv
  exact ⟨shown, hshown, hvalue.trans hpart⟩

/-- The lines of the text of a problem. -/
theorem exists_lines_of_text (h : e.text = .ok text) :
    ∃ label shown hint, e.place.label = .ok label ∧
      text = "\n".intercalate (("❌ " ++ label ++ ": " ++ e.message) :: shown ++ hint) ∧
      (∀ v ∈ e.value, ∃ display, v.display = .ok display ∧ "   Got: " ++ display ∈ shown) ∧
      ∀ s ∈ e.suggestion, "   💡 " ++ s ∈ hint := by
  obtain ⟨label, hlabel, h⟩ := bind_eq_ok h
  cases hvalue : e.value with
  | none =>
    simp only [hvalue] at h
    refine ⟨label, [], _, hlabel, (Except.ok.inj h).symm, nofun, fun s hs => ?_⟩
    simp [Option.mem_def.mp hs]
  | some v =>
    simp only [hvalue] at h
    obtain ⟨display, hdisplay, h⟩ := bind_eq_ok h
    refine ⟨label, ["   Got: " ++ display], _, hlabel, (Except.ok.inj h).symm, ?_, fun s hs => ?_⟩
    · rintro _ ⟨⟩
      exact ⟨display, hdisplay, List.mem_singleton_self _⟩
    · simp [Option.mem_def.mp hs]

theorem told_of_text (h : e.text = .ok text) : e.ToldIn text.toList := by
  obtain ⟨label, shown, hint, hlabel, rfl, hvalue, hhint⟩ := exists_lines_of_text h
  let lines := ("❌ " ++ label ++ ": " ++ e.message) :: shown ++ hint
  have hline {line : String} (hline : line ∈ lines) :
      line.toList <:+: ("\n".intercalate lines).toList := infix_joined hline
  have hpart {before part after : String} : part.toList <:+: (before ++ part ++ after).toList := by
    rw [String.toList_append, String.toList_append]
    exact ⟨_, _, rfl⟩
  have hend {before part : String} : part.toList <:+: (before ++ part).toList := by
    rw [String.toList_append]
    exact (List.suffix_append _ _).isInfix
  have hfirst := hline (List.mem_append_left _ (List.mem_cons_self ..))
  constructor
  case place =>
    refine ⟨label, hlabel, .trans ?_ hfirst⟩
    rw [String.append_assoc]
    exact hpart
  case message => exact hend.trans hfirst
  case value =>
    intro v hv
    obtain ⟨display, hdisplay, hmem⟩ := hvalue v hv
    exact ⟨display, hdisplay, hend.trans
      (hline (List.mem_append_left _ (List.mem_cons_of_mem _ hmem)))⟩
  case suggestion =>
    intro s hs
    exact hend.trans (hline (List.mem_append_right _ (hhint s hs)))

/-- The texts of problems are told one after the other. -/
theorem exists_text_of_mem {errors : List SuiteError} {texts : List String}
    (h : errorTexts errors = .ok texts) (he : e ∈ errors) : ∃ part ∈ texts, e.text = .ok part := by
  induction errors generalizing texts with
  | nil => cases he
  | cons first rest ih =>
    obtain ⟨part, hpart, h⟩ := bind_eq_ok h
    obtain ⟨parts, hparts, h⟩ := bind_eq_ok h
    cases Except.ok.inj h
    rcases List.mem_cons.mp he with rfl | he
    · exact ⟨part, List.mem_cons_self .., hpart⟩
    · obtain ⟨found, hfound, hsome⟩ := ih hparts he
      exact ⟨found, List.mem_cons_of_mem _ hfound, hsome⟩

end SuiteError

/-- **The text of all problems tells of each of them.** -/
theorem Validation.told_of_text {problems : Validation} {text : String}
    (h : problems.text = .ok text) {e : SuiteError} (he : e ∈ problems) : e.ToldIn text.toList := by
  have hsome : problems.isEmpty = false := List.isEmpty_eq_false_iff.mpr (List.ne_nil_of_mem he)
  simp only [Validation.text, hsome, Bool.false_eq_true, if_false] at h
  obtain ⟨texts, hall, h⟩ := bind_eq_ok h
  obtain ⟨part, hpart, hpartText⟩ := SuiteError.exists_text_of_mem hall he
  rw [← Except.ok.inj h]
  exact (SuiteError.told_of_text hpartText).mono (infix_joined (List.mem_cons_of_mem _ hpart))

/-! ### What is printed -/

/-- What is printed: every line with a line feed. -/
def Conclusion.stdout (c : Conclusion) : List Char :=
  c.lines.flatMap fun line => line.toList ++ ['\n']

theorem flatMap_lines {lines : List (List Char)} (h : lines ≠ []) :
    lines.flatMap (· ++ ['\n']) = ['\n'].intercalate lines ++ ['\n'] := by
  induction lines with
  | nil => exact absurd rfl h
  | cons line rest ih =>
    rw [List.flatMap_cons]
    cases rest with
    | nil => simp
    | cons second rest =>
      rw [ih (List.cons_ne_nil _ _), List.intercalate_cons_of_ne_nil (List.cons_ne_nil _ _)]
      simp only [List.append_assoc]

/-- A text whose lines are shown is printed. -/
theorem Conclusion.infix_stdout {c : Conclusion} {before : List String} {text : String}
    (h : c.lines = before ++ linesOf text) : text.toList <:+: c.stdout := by
  have hlines : (linesOf text).flatMap (fun line => line.toList ++ ['\n'])
      = text.toList ++ ['\n'] := by
    rw [linesOf, List.flatMap_map]
    simp only [String.toList_ofList]
    rw [flatMap_lines (splitLines_ne_nil _), intercalate_splitLines]
  rw [stdout, h, List.flatMap_append, hlines, ← List.append_assoc]
  exact ⟨_, _, rfl⟩

namespace Command

variable {p : Packages} {root : FileNode} {s : Surroundings} {c : Command} {problems : Validation}
  {runner : Runner} {heading before lines : List String} {file text : String} {fault : Fault}

/-- The text with which a command begins. A quiet run has none. -/
def heading? : Command → Option String
  | .validate file => some ("\n📄 Validating: " ++ (Location.ofText file).text)
  | .run o => if o.quiet then none
    else some ("\n📄 Loading suite: " ++ (Location.ofText o.suiteFile).text)
  | .help | .version | .info => none

/-- The lines in which a command begins. The heading may be taken for markup too. -/
def headingLines (k : Console) (c : Command) : Except Fault (List String) :=
  match c.heading? with
  | none => .ok []
  | some text => k.markup text

/-- The lines before the problems: those of the heading, and those that say that there are some. -/
def opening (k : Console) (c : Command) : Except Fault (List String) := do
  return (← c.headingLines k) ++ (← k.markup rejection)

/-- Show the text with which a command begins. -/
def sayHeading (c : Command) : Work Unit :=
  match c.heading? with
  | none => pure ()
  | some text => say text

theorem tells_sayHeading (h : c.headingLines p.console = .ok lines) :
    Tells p root c.sayHeading (.ok ()) lines := by
  rw [headingLines] at h
  rw [sayHeading]
  cases hheading : c.heading? with
  | none =>
    simp only [hheading] at h
    exact Except.ok.inj h ▸ tells_pure ()
  | some text =>
    simp only [hheading] at h
    exact tells_print h

theorem tells_sayHeading_error (h : c.headingLines p.console = .error fault) :
    Tells p root c.sayHeading (.error fault) [] := by
  rw [headingLines] at h
  rw [sayHeading]
  cases hheading : c.heading? with
  | none =>
    simp only [hheading] at h
    cases h
  | some text =>
    simp only [hheading] at h
    exact tells_print_error h

theorem sayHeading_run (o : RunOptions) : (Command.run o).sayHeading
    = sayUnless o.quiet ("\n📄 Loading suite: " ++ (Location.ofText o.suiteFile).text) := by
  cases hquiet : o.quiet <;> simp [sayHeading, heading?, sayUnless, hquiet]

/-- After the heading the problems are shown, whatever the command is. -/
theorem tells_work {r : Except Fault Nat} (hfile : c.suiteFile? = some file)
    (hload : Suite.load p.yaml root (.ofText file) = .ok (.rejected problems))
    (hlevel : ∀ o, c = .run o → logLevels.contains o.logLevel.toUpper = true)
    (hheading : Tells p root c.sayHeading (.ok ()) heading)
    (hreject : Tells p root (reject problems) r lines) :
    Tells p root (work runner c) r (heading ++ lines) := by
  cases c with
  | help | version | info => cases hfile
  | validate file' =>
    cases hfile
    exact hheading.bind ((tells_loadFrom hload).bind hreject)
  | run o =>
    cases hfile
    rw [sayHeading_run] at hheading
    exact (tells_checkLogLevel (hlevel o rfl)).bind
      (hheading.bind ((tells_loadFrom hload).bind hreject))

/-- Nothing comes after a heading that cannot be shown. -/
theorem tells_work_error (hfile : c.suiteFile? = some file)
    (hlevel : ∀ o, c = .run o → logLevels.contains o.logLevel.toUpper = true)
    (hheading : Tells p root c.sayHeading (.error fault) []) :
    Tells p root (work runner c) (.error fault) [] := by
  cases c with
  | help | version | info => cases hfile
  | validate file' => exact hheading.bind_error
  | run o =>
    rw [sayHeading_run] at hheading
    exact (tells_checkLogLevel (hlevel o rfl)).bind hheading.bind_error

/-- What is shown of the problems, before the code that the command gives. -/
theorem tells_reject (hbefore : p.console.markup rejection = .ok before)
    (htext : problems.text = .ok text) (hshown : p.console.markup text = .ok lines) :
    Tells p root (reject problems) (.ok 1) (before ++ lines) := by
  have hlift : Tells p root (lift problems.text) (.ok text) [] := htext ▸ tells_lift problems.text
  have hsay : Tells p root (say text) (.ok ()) lines := tells_print hshown
  have hrest := hlift.bind (g := fun text => do say text; return 1)
    (hsay.bind (g := fun _ => pure 1) (tells_pure 1))
  rw [List.nil_append, List.append_nil] at hrest
  have hrejection : Tells p root (say rejection) (.ok ()) before := tells_print hbefore
  exact hrejection.bind hrest

theorem tells_reject_error (hbefore : p.console.markup rejection = .ok before)
    (h : problems.text = .error fault ∨ ∃ text, problems.text = .ok text ∧
      p.console.markup text = .error fault) :
    Tells p root (reject problems) (.error fault) before := by
  have hrest : Tells p root (lift problems.text >>= fun text => do say text; return 1)
      (.error fault) [] := by
    rcases h with htext | ⟨text, htext, hshown⟩
    · have hlift : Tells p root (lift problems.text) (.error fault) [] :=
        htext ▸ tells_lift problems.text
      exact hlift.bind_error
    · have hlift : Tells p root (lift problems.text) (.ok text) [] :=
        htext ▸ tells_lift problems.text
      have hsay : Tells p root (say text) (.error fault) [] := tells_print_error hshown
      exact hlift.bind hsay.bind_error
  have hrejection : Tells p root (say rejection) (.ok ()) before := tells_print hbefore
  rw [← List.append_nil before]
  exact hrejection.bind hrest

section Rejected

variable (hfile : c.suiteFile? = some file)
  (hload : Suite.load s.packages.yaml s.files (.ofText file) = .ok (.rejected problems))
  (hlevel : ∀ o, c = .run o → logLevels.contains o.logLevel.toUpper = true)
include hfile hload hlevel

/-- What comes of a command with a suite that is rejected, if its opening cannot be shown. -/
theorem execute_of_opening_error (runner : Runner)
    (hopening : c.opening s.packages.console = .error fault) :
    (execute runner s c).fault = some fault := by
  rcases bind_eq_error hopening with hheading | ⟨heading, hheading, hopening⟩
  · have hwork : Tells s.packages s.files (work runner c) (.error fault) [] :=
      tells_work_error hfile hlevel (tells_sayHeading_error hheading)
    rw [execute_of_tells hwork]
  · rcases bind_eq_error hopening with hrejection | ⟨before, _, hopening⟩
    · have hreject : Tells s.packages s.files (reject problems) (.error fault) [] :=
        (tells_print_error hrejection).bind_error
      have hwork : Tells s.packages s.files (work runner c) (.error fault) (heading ++ []) :=
        tells_work hfile hload hlevel (tells_sayHeading hheading) hreject
      rw [execute_of_tells hwork]
    · cases hopening

variable (hopening : c.opening s.packages.console = .ok before)
include hopening

/-- What comes of it, if all of its texts can be shown. -/
theorem execute_of_shown (runner : Runner) (htext : problems.text = .ok text)
    (hshown : s.packages.console.markup text = .ok lines) :
    execute runner s c = { exitCode := 1, lines := before ++ lines, files := s.files } := by
  obtain ⟨heading, hheading, hopening⟩ := bind_eq_ok hopening
  obtain ⟨rejected, hrejection, hopening⟩ := bind_eq_ok hopening
  obtain rfl := Except.ok.inj hopening
  have hwork : Tells s.packages s.files (work runner c) (.ok 1) (heading ++ (rejected ++ lines)) :=
    tells_work hfile hload hlevel (tells_sayHeading hheading)
      (tells_reject hrejection htext hshown)
  rw [execute_of_tells hwork, List.append_assoc]

/-- What comes of it, if the problems have no text or the text cannot be shown. -/
theorem execute_of_not_shown (runner : Runner)
    (h : problems.text = .error fault ∨ ∃ text, problems.text = .ok text ∧
      s.packages.console.markup text = .error fault) :
    execute runner s c =
      { exitCode := 1, lines := before, files := s.files, fault := some fault } := by
  obtain ⟨heading, hheading, hopening⟩ := bind_eq_ok hopening
  obtain ⟨rejected, hrejection, hopening⟩ := bind_eq_ok hopening
  obtain rfl := Except.ok.inj hopening
  have hwork : Tells s.packages s.files (work runner c) (.error fault) (heading ++ rejected) :=
    tells_work hfile hload hlevel (tells_sayHeading hheading) (tells_reject_error hrejection h)
  rw [execute_of_tells hwork]

/-- The lines of the text of the problems follow on the opening iff the console prints the text in
its own lines. -/
theorem execute_of_rejected (runner : Runner) (htext : problems.text = .ok text) :
    (execute runner s c).fault = none ∧ (execute runner s c).lines = before ++ linesOf text
      ↔ s.packages.console.markup text = .ok (linesOf text) := by
  cases hshown : s.packages.console.markup text with
  | ok lines =>
    rw [execute_of_shown hfile hload hlevel hopening runner htext hshown]
    simp only [true_and, List.append_cancel_left_eq, Except.ok.injEq]
  | error fault =>
    rw [execute_of_not_shown hfile hload hlevel hopening runner (.inr ⟨text, htext, hshown⟩)]
    exact iff_of_false (fun h => nomatch h.1) nofun

end Rejected

end Command

/-- **The problems with a suite are shown in full** iff the console prints the text that tells of
them in its own lines, whatever packages read the command line and the file. A command with a suite
that is rejected ends with the code 1 and leaves the files alone. If its opening or the text of the
problems cannot be made, there is a fault in its place. Otherwise the lines of that text follow on
the opening, and then everything about each of the problems is printed; or there is something else
in their place, or a fault.

A console that does with markup what is asked of it prints the text in its own lines if nothing in
it means anything to the console, and it does not if there is a tag in it, such as that of a message
with a tag. -/
theorem problems_shown_iff {s : Surroundings} {args : List String} {c : Command} {file : String}
    {problems : Validation} (hargs : s.packages.commands s.files args = some c)
    (hfile : c.suiteFile? = some file)
    (hload : Suite.load s.packages.yaml s.files (.ofText file) = .ok (.rejected problems))
    (hlevel : ∀ o, c = .run o → Command.logLevels.contains o.logLevel.toUpper = true) :
    let done := executeArguments s args
    let k := s.packages.console
    done.exitCode = 1 ∧ done.files = s.files ∧ done.written = [] ∧
    (∀ fault, c.opening k = .error fault → done.fault = some fault) ∧
    ∀ opening, c.opening k = .ok opening →
      (∀ fault, problems.text = .error fault → done.fault = some fault ∧ done.lines = opening) ∧
      ∀ text, problems.text = .ok text →
        (done.fault = none ∧ done.lines = opening ++ linesOf text ↔
          k.markup text = .ok (linesOf text)) ∧
        (k.markup text = .ok (linesOf text) → text.toList <:+: done.stdout ∧
          ∀ e ∈ problems, e.ToldIn done.stdout) ∧
        (k.Renders → (Console.Untouched text → k.markup text = .ok (linesOf text)) ∧
          (Markup.Tagged text.toList → k.markup text ≠ .ok (linesOf text))) ∧
        ∀ e ∈ problems, Markup.Tagged e.message.toList → Markup.Tagged text.toList := by
  intro done k
  have hdone : done = c.execute s.run s := executeWith_of_arguments hargs s.run
  have hrejected : Command.Telling s.packages s.files (c.work s.run) (· = 1) :=
    Command.telling_work_of_rejected hfile hload
  obtain ⟨hcode, hfiles, hwritten⟩ := Command.execute_of_telling hrejected
  rw [hdone]
  refine ⟨hcode.elim id id, hfiles, hwritten, fun fault hopening =>
    Command.execute_of_opening_error hfile hload hlevel s.run hopening,
    fun opening hopening => ⟨fun fault hfault => ?_, fun text htext => ?_⟩⟩
  · rw [Command.execute_of_not_shown hfile hload hlevel hopening s.run (.inl hfault)]
    exact ⟨rfl, rfl⟩
  · have hshown := Command.execute_of_rejected hfile hload hlevel hopening s.run htext
    refine ⟨hshown, fun hverbatim => ?_, fun hrenders =>
      ⟨hrenders.untouched text, hrenders.tagged text⟩, fun e he htagged => ?_⟩
    · have hpart := Conclusion.infix_stdout (hshown.mpr hverbatim).2
      exact ⟨hpart, fun e he => (Validation.told_of_text htext he).mono hpart⟩
    · exact htagged.mono (Validation.told_of_text htext he).message

/-! ### Lists of a wrong length -/

/-- **A list of a wrong length** in the place of a key or a path with a value is never reported in
full: the message has a tag in it. -/
theorem tagged_of_pairErrors {first path : String} {valueRequired : Bool} {node : NodeId}
    {items : List Value} (hfirst : first = "key" ∨ first = "path")
    (hlength : items.length < (if valueRequired then 2 else 1) ∨ 2 < items.length) :
    ∃ e, pairErrors first valueRequired (.array node .list items) path = .ok [e] ∧
      Markup.Tagged e.message.toList := by
  have hwrong : (decide (items.length < if valueRequired then 2 else 1)
      || decide (2 < items.length)) = true := by simpa using hlength
  refine ⟨_, if_pos hwrong, ?_⟩
  have htag {message : String} (before after tail : List Char) (c : Char)
      (h : message.toList = before ++ '[' :: ((c :: tail) ++ ']' :: after))
      (hc : Markup.startsTag c = true) (htail : ']' ∉ tail ∧ '[' ∉ tail) :
      Markup.Tagged message.toList := ⟨before, c :: tail, after, h, Markup.isTag_cons hc htail⟩
  show Markup.Tagged (String.toList (if valueRequired then s!"Expected [{first}, value]"
    else s!"Expected [{first}] or [{first}, value]"))
  let before := "Expected ".toList
  rcases hfirst with rfl | rfl <;> cases valueRequired
  · exact htag before " or [key, value]".toList "ey".toList 'k' (by decide) rfl (by decide)
  · exact htag before [] "ey, value".toList 'k' (by decide) rfl (by decide)
  · exact htag before " or [path, value]".toList "ath".toList 'p' (by decide) rfl (by decide)
  · exact htag before [] "ath, value".toList 'p' (by decide) rfl (by decide)

/-! ### Two suites with a problem each -/

/-- The text of the problems that were found in loading. -/
def problemsText? : Except Fault Loaded → Option String
  | .ok (.rejected problems) => problems.text.toOption
  | _ => none

theorem exists_of_problemsText? {r : Except Fault Loaded} {text : String}
    (h : problemsText? r = some text) :
    ∃ problems, r = .ok (.rejected problems) ∧ problems.text = .ok text := by
  cases r with
  | error fault => cases h
  | ok loaded =>
    cases loaded with
    | accepted suite => cases h
    | rejected problems =>
      refine ⟨problems, rfl, ?_⟩
      cases htext : problems.text with
      | ok found =>
        simp only [problemsText?, htext] at h
        rw [Option.some.inj h]
      | error fault =>
        simp only [problemsText?, htext] at h
        cases h

/-- A suite without checks. -/
def bareSuite : String := "version: 1\nname: s\n"

/-- What is wrong with it. -/
def bareProblem : String :=
  "Schema validation failed with 1 error(s):\n\n❌ checks: Required field 'checks' is missing\n"
    ++ "   💡 Add 'checks:' to your suite file"

/-- The lines before the problems. -/
theorem opening_validate : (Command.validate "s.yaml").opening (Terminal.console {})
    = .ok ["", "📄 Validating: s.yaml", "", "❌ Validation failed:"] := by
  decide +kernel

/-- The problem with a suite that has no checks is shown in full. -/
theorem problems_shown_of_bare : bareProblem.toList <:+:
    (executeArguments (surroundingsOf bareSuite) ["validate", "s.yaml"]).stdout := by
  let s := surroundingsOf bareSuite
  have hcomputed : problemsText? (Suite.load s.packages.yaml s.files (.ofText "s.yaml"))
      = some bareProblem := by decide +kernel
  obtain ⟨problems, hload, htext⟩ := exists_of_problemsText? hcomputed
  have hargs : s.packages.commands s.files ["validate", "s.yaml"] = some (.validate "s.yaml") := by
    decide +kernel
  have hprinted : s.packages.console.markup bareProblem = .ok (linesOf bareProblem) := by
    decide +kernel
  have hshown := problems_shown_iff hargs rfl hload nofun
  exact (((hshown.2.2.2.2 _ opening_validate).2 _ htext).2.1 hprinted).1

/-- A step that looks for a key without a value. -/
def keySuite : String :=
  "version: 1\nname: s\nchecks:\n- id: a\n  document: 1\n  steps:\n  - containing: [k]\n"

/-- What is wrong with it. -/
def keyProblem : String :=
  "Schema validation failed with 1 error(s):\n\n❌ checks[0].steps[0]: Expected [key, value]\n"
    ++ "   Got: ['k']"

/-- The lines that are shown of it. -/
def keyLines : List String :=
  ["Schema validation failed with 1 error(s):", "", "❌ checks[0].steps[0]: Expected ",
    "   Got: ['k']"]

theorem markup_keyProblem : (Terminal.console {}).markup keyProblem = .ok keyLines := by
  decide +kernel

/-- **Not every problem is shown in full**: the two words in brackets that say what was expected are
not there, whatever the command is. -/
theorem problems_not_shown :
    let s := surroundingsOf keySuite
    (∃ problems, Suite.load s.packages.yaml s.files (.ofText "s.yaml") = .ok (.rejected problems) ∧
        problems.text = .ok keyProblem) ∧
      ∀ command ∈ ["validate", "run"], ¬ keyProblem.toList <:+:
        (executeArguments s [command, "s.yaml"]).stdout := by
  intro s
  have hloaded : ∃ problems, Suite.load s.packages.yaml s.files (.ofText "s.yaml")
      = .ok (.rejected problems) ∧ problems.text = .ok keyProblem :=
    exists_of_problemsText? (by decide +kernel)
  refine ⟨hloaded, fun command hcommand => ?_⟩
  obtain ⟨problems, hload, htext⟩ := hloaded
  have hshown : s.packages.console.markup keyProblem = .ok keyLines := markup_keyProblem
  rcases List.mem_pair.mp hcommand with rfl | rfl
  · have hargs : s.packages.commands s.files ["validate", "s.yaml"]
        = some (.validate "s.yaml") := by decide +kernel
    have hlevel : ∀ o, Command.validate "s.yaml" = .run o →
        Command.logLevels.contains o.logLevel.toUpper = true := nofun
    rw [executeArguments, executeWith_of_arguments hargs,
      Command.execute_of_shown rfl hload hlevel opening_validate _ htext hshown]
    decide +kernel
  · let o : RunOptions := { suiteFile := "s.yaml" }
    have hargs : s.packages.commands s.files ["run", "s.yaml"] = some (.run o) := by decide +kernel
    have hopening : (Command.run o).opening s.packages.console
        = .ok ["", "📄 Loading suite: s.yaml", "", "❌ Validation failed:"] := by decide +kernel
    have hlevel : ∀ o', Command.run o = .run o' →
        Command.logLevels.contains o'.logLevel.toUpper = true := by
      intro o' ho
      rw [← Command.run.inj ho]
      decide +kernel
    rw [executeArguments, executeWith_of_arguments hargs,
      Command.execute_of_shown rfl hload hlevel hopening _ htext hshown]
    decide +kernel

end Attest

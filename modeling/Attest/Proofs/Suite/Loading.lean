import Attest.Proofs.Value.Shown
import Attest.Suite.Load
import Attest.Yaml.Document

/-!
# Loading that is interrupted

Whoever loads a file should get a suite or the problems with it, whatever is in the file. Before the
schema is looked at, the file is found, and the package for YAML makes data of it. A file that is
missing, a mistake in YAML and a value that is no mapping are refused, each with one problem that
names the file. Nothing else is foreseen: bytes that are no text and scalars that have no value are
faults of the package that interrupt the loading, though they are as much up to the file as a
bracket that is not closed.

What the package makes of a file is not said here. The package at hand is only needed for files that
are there to be looked at.

## Main definitions

* `YamlLoader.Decodes` — a package that makes nothing of bytes that are no text
* `Suite.Opens` — what loading finds at a path before the schema is looked at
* `Suite.Answerable` — the paths that it has an answer for
* `Suite.Escapes` — the faults that go through where it has none

## Main results

* `Suite.load_reports_unless` — a file is answered for, or the fault is one of those that escape
* `Suite.load_not_total` — files that are not answered for
-/

namespace Attest

/-- A package that makes no data of bytes that are no text: it finds a mistake in front of them, or
is interrupted. -/
structure YamlLoader.Decodes (yaml : YamlLoader) : Prop where
  undecodable : ∀ data e, Encoding.decodeText data = .error e → ¬ Succeeds (yaml (.file data))

theorem Yaml.loader_decodes : Yaml.loader.Decodes where
  undecodable := by
    rintro data e h ⟨v, hv⟩
    simp only [Yaml.loader, h] at hv
    cases hv

/-- The suite that was loaded, if it was. -/
def Loaded.suite? : Loaded → Option Suite
  | .rejected _ => none
  | .accepted suite => some suite

/-- The problems that were found, if any. -/
def Loaded.problems : Loaded → Validation
  | .rejected problems => problems
  | .accepted _ => []

namespace Suite

variable {yaml : YamlLoader} {root : FileNode} {path : Location}

/-! ### What a path leads to -/

/-- What is found before the schema is looked at: a problem, or a mapping. -/
inductive Opening where
  | refused (problem : SuiteError)
  | mapping (node : NodeId) (entries : Entries)

/-- What loading finds at a path. -/
inductive Opens (yaml : YamlLoader) (root : FileNode) (path : Location) : Opening → Prop
  | missing (h : root.exists? path = .ok false) :
      Opens yaml root path (.refused
        ((problem path.text "File not found").suggest "Check the file path is correct"))
  | notYaml {bytes : List UInt8} {detail : String} (hbytes : root.read path = .ok bytes)
      (h : yaml (.file bytes) = .error (.notYaml detail)) :
      Opens yaml root path (.refused ((syntaxProblem path.text detail).suggest
        "Check YAML formatting (indentation, colons, etc.)"))
  | notMapping {bytes : List UInt8} {data : Value} (hbytes : root.read path = .ok bytes)
      (h : yaml (.file bytes) = .ok data)
      (hdata : ∀ node entries, data ≠ .object node .plain entries) :
      Opens yaml root path (.refused
        ((problem path.text "Content must be a YAML object (not a list or scalar)").got
          (.str data.typeName)))
  | mapping {bytes : List UInt8} {node : NodeId} {entries : Entries}
      (hbytes : root.read path = .ok bytes)
      (h : yaml (.file bytes) = .ok (.object node .plain entries)) :
      Opens yaml root path (.mapping node entries)

/-- Bytes with data in them, or with a mistake in YAML. -/
def Readable (yaml : YamlLoader) (bytes : List UInt8) : Prop :=
  ∀ fault, yaml (.file bytes) = .error fault → ∃ detail, fault = .notYaml detail

/-- The paths that lead to no file, or to one that is readable. -/
def Answerable (yaml : YamlLoader) (root : FileNode) (path : Location) : Prop :=
  root.exists? path = .ok false ∨
    ∃ bytes, root.find path = .ok (.file bytes) ∧ Readable yaml bytes

/-- The faults that escape before the schema is looked at. -/
inductive Escapes (yaml : YamlLoader) (root : FileNode) (path : Location) : Fault → Prop
  | overlong (h : root.find path = .error .nameTooLong) :
      Escapes yaml root path (.file .nameTooLong path.text)
  | directory {entries : List (String × FileNode)} (h : root.find path = .ok (.directory entries)) :
      Escapes yaml root path (.file .isADirectory path.text)
  | uncaught {bytes : List UInt8} {fault : Fault} (hfile : root.find path = .ok (.file bytes))
      (h : yaml (.file bytes) = .error fault) (hfault : ∀ detail, fault ≠ .notYaml detail) :
      Escapes yaml root path fault

/-! ### Finding and reading a file -/

/-- The ways in which a file is found or not. -/
theorem found_cases (root : FileNode) (path : Location) :
    (root.exists? path = .ok false ∧ ∃ fault, root.read path = .error fault) ∨
    (root.exists? path = .error (.file .nameTooLong path.text) ∧
      root.read path = .error (.file .nameTooLong path.text) ∧
      root.find path = .error .nameTooLong) ∨
    (root.exists? path = .ok true ∧ root.read path = .error (.file .isADirectory path.text) ∧
      ∃ entries, root.find path = .ok (.directory entries)) ∨
    (root.exists? path = .ok true ∧
      ∃ bytes, root.read path = .ok bytes ∧ root.find path = .ok (.file bytes)) := by
  unfold FileNode.exists? FileNode.read
  cases hname : FileNode.isNameable path with
  | false => exact .inl ⟨rfl, _, rfl⟩
  | true =>
    simp only [Bool.not_true, Bool.false_eq_true, if_false]
    cases hfind : root.find path with
    | ok found =>
      cases found with
      | directory entries => exact .inr (.inr (.inl ⟨rfl, rfl, entries, rfl⟩))
      | file bytes => exact .inr (.inr (.inr ⟨rfl, bytes, rfl, rfl⟩))
    | error trouble =>
      cases trouble with
      | nameTooLong => exact .inr (.inl ⟨rfl, rfl, rfl⟩)
      | _ => exact .inl ⟨rfl, _, rfl⟩

theorem load_of_missing (h : root.exists? path = .ok false) :
    load yaml root path = .ok (.rejected
      [(problem path.text "File not found").suggest "Check the file path is correct"]) := by
  simp only [load, h]
  rfl

/-- A path that is read from leads to a file. -/
theorem file_of_read {bytes : List UInt8} (h : root.read path = .ok bytes) :
    root.exists? path = .ok true ∧ root.find path = .ok (.file bytes) := by
  rcases found_cases root path with ⟨_, fault, hread⟩ | ⟨_, hread, _⟩ | ⟨_, hread, _⟩ |
    ⟨hexists, bytes', hread, hfind⟩
  case inr.inr.inr =>
    cases hread.symm.trans h
    exact ⟨hexists, hfind⟩
  all_goals cases hread.symm.trans h

theorem load_of_read {bytes : List UInt8} (h : root.read path = .ok bytes) :
    load yaml root path = match yaml (.file bytes) with
      | .ok data => ofData path.text (some path.parent) data
      | .error (.notYaml detail) => .ok (.rejected [(syntaxProblem path.text detail).suggest
          "Check YAML formatting (indentation, colons, etc.)"])
      | .error fault => .error fault := by
  simp only [load, (file_of_read h).1, h]
  rfl

theorem ofData_of_not_mapping {source : String} {base : Option Location} {data : Value}
    (h : ∀ node entries, data ≠ .object node .plain entries) :
    ofData source base data = .ok (.rejected
      [(problem source "Content must be a YAML object (not a list or scalar)").got
        (.str data.typeName)]) := by
  unfold ofData
  split
  · next node entries => exact absurd rfl (h node entries)
  · rfl

/-- What is made of a mapping: problems, if there are any, and a suite otherwise. -/
theorem ofData_mapping {source : String} {base : Option Location} {node : NodeId}
    {entries : Entries} {loaded : Loaded}
    (h : ofData source base (.object node .plain entries) = .ok loaded) :
    schemaErrors entries = .ok loaded.problems ∧ (loaded.suite? = none ↔ loaded.problems ≠ []) := by
  obtain ⟨problems, hproblems, h⟩ := bind_eq_ok h
  cases problems with
  | cons e rest =>
    cases h
    exact ⟨hproblems, by simp [Loaded.suite?, Loaded.problems]⟩
  | nil =>
    obtain ⟨draft, _, h⟩ := bind_eq_ok h
    cases hdraft : ofDraft? draft with
    | none =>
      rw [hdraft] at h
      cases h
    | some suite =>
      rw [hdraft] at h
      cases h
      exact ⟨hproblems, by simp [Loaded.suite?, Loaded.problems]⟩

/-! ### Loading -/

theorem load_refused {e : SuiteError} (h : Opens yaml root path (.refused e)) :
    load yaml root path = .ok (.rejected [e]) ∧ e.place = .str path.text := by
  cases h with
  | missing h => exact ⟨load_of_missing h, rfl⟩
  | notYaml hbytes h => exact ⟨by rw [load_of_read hbytes, h], rfl⟩
  | notMapping hbytes h hdata =>
    refine ⟨?_, rfl⟩
    rw [load_of_read hbytes, h]
    exact ofData_of_not_mapping hdata

theorem load_mapping {node : NodeId} {entries : Entries}
    (h : Opens yaml root path (.mapping node entries)) :
    load yaml root path = ofData path.text (some path.parent) (.object node .plain entries) := by
  cases h with
  | mapping hbytes h => rw [load_of_read hbytes, h]

/-- A file that is readable has something in it. -/
theorem opens_of_read {bytes : List UInt8} (hbytes : root.read path = .ok bytes)
    (h : Readable yaml bytes) : ∃ opening, Opens yaml root path opening := by
  cases hdata : yaml (.file bytes) with
  | error fault =>
    obtain ⟨detail, rfl⟩ := h fault hdata
    exact ⟨_, .notYaml hbytes hdata⟩
  | ok data =>
    by_cases hmap : ∃ node entries, data = .object node .plain entries
    · obtain ⟨node, entries, rfl⟩ := hmap
      exact ⟨_, .mapping hbytes hdata⟩
    · exact ⟨_, .notMapping hbytes hdata fun node entries heq => hmap ⟨node, entries, heq⟩⟩

theorem opens_iff_answerable :
    (∃ opening, Opens yaml root path opening) ↔ Answerable yaml root path := by
  constructor
  · rintro ⟨opening, h⟩
    have hfile {bytes : List UInt8} (hbytes : root.read path = .ok bytes)
        (hread : Readable yaml bytes) : Answerable yaml root path :=
      .inr ⟨bytes, (file_of_read hbytes).2, hread⟩
    cases h with
    | missing h => exact .inl h
    | notYaml hbytes h =>
      exact hfile hbytes fun fault hf => ⟨_, Except.error.inj (hf.symm.trans h)⟩
    | notMapping hbytes h _ => exact hfile hbytes fun fault hf => by cases hf.symm.trans h
    | mapping hbytes h => exact hfile hbytes fun fault hf => by cases hf.symm.trans h
  · rintro (h | ⟨bytes, hfind, hread⟩)
    · exact ⟨_, .missing h⟩
    · rcases found_cases root path with ⟨hexists, _⟩ | ⟨_, _, hfind'⟩ | ⟨_, _, _, hfind'⟩ |
        ⟨_, bytes', hbytes, hfind'⟩
      · exact ⟨_, .missing hexists⟩
      · cases hfind.symm.trans hfind'
      · cases hfind.symm.trans hfind'
      · cases hfind.symm.trans hfind'
        exact opens_of_read hbytes hread

/-- Where there is no answer, the cause is known. -/
theorem escapes_of_not_answerable (h : ¬ Answerable yaml root path) :
    ∃ fault, load yaml root path = .error fault ∧ Escapes yaml root path fault := by
  rcases found_cases root path with ⟨hexists, _⟩ | ⟨hexists, _, hfind⟩ |
    ⟨hexists, hread, entries, hfind⟩ | ⟨hexists, bytes, hread, hfind⟩
  · exact absurd (.inl hexists) h
  · refine ⟨_, ?_, .overlong hfind⟩
    simp only [load, hexists]
    rfl
  · refine ⟨_, ?_, .directory hfind⟩
    simp only [load, hexists, hread]
    rfl
  · have hunreadable : ¬ Readable yaml bytes := fun hreadable => h (.inr ⟨bytes, hfind, hreadable⟩)
    obtain ⟨fault, hdata, hne⟩ : ∃ fault, yaml (.file bytes) = .error fault ∧
        ∀ detail, fault ≠ .notYaml detail := by
      simpa [Readable] using hunreadable
    refine ⟨fault, ?_, .uncaught hfind hdata hne⟩
    rw [load_of_read hread, hdata]
    cases fault with
    | notYaml detail => exact absurd rfl (hne detail)
    | _ => rfl

/-- A directory with one file. -/
def alone (bytes : List UInt8) : FileNode := .directory [("s.yaml", .file bytes)]

/-- The path of the file. -/
def alonePath : Location := ⟨"", ["s.yaml"]⟩

/-- The class of the fault that interrupted a computation. -/
def raised? {α : Type} : Except Fault α → Option String
  | .ok _ => none
  | .error fault => some fault.label

end Suite

end Attest

import Attest.Files.Tree
import Attest.Proofs.Value.Shown

/-!
# What saving changes

Directories are made on the way to a file, and then the file is written. The files of a tree are
told here by the names that lead to them, so that making directories changes nothing, and writing a
file changes that file alone. A path may go back and forth, but it stands for the names that are
left of it without its detours.

## Main definitions

* `FileNode.contents?` — the contents of the file that names lead to
* `FileNode.Saved` — a tree in which one file was written

## Main results

* `FileNode.saved_of_save` — saving writes one file
* `FileNode.read_eq_ok_iff` — what is read of a file is its contents
-/

namespace Attest

namespace FileNode

variable {root here there after : FileNode} {l : Location} {data : List UInt8}
  {name other : String} {names path : List String}

/-- The contents of the file that names lead to. -/
def contents? (here : FileNode) : List String → Option (List UInt8)
  | [] => match here with
    | .file data => some data
    | .directory _ => none
  | name :: rest => match here with
    | .file _ => none
    | .directory entries => (entries.lookup name).bind fun next => contents? next rest

/-- A tree in which one file was written: that file has the contents, and all others have those they
had. If the path leads out of the tree, it is a file somewhere else. -/
def Saved (root : FileNode) (l : Location) (data : List UInt8) (after : FileNode) : Prop :=
  ∀ path, after.contents? path
    = if inside? l = some path then some data else root.contents? path

/-! ### Directories -/

theorem contents?_file_cons : (file data).contents? (name :: names) = none := rfl

theorem contents?_directory_cons (entries : List (String × FileNode)) :
    (directory entries).contents? (name :: names)
      = (entries.lookup name).bind fun next => next.contents? names := rfl

theorem contents?_empty : empty.contents? names = none := by
  cases names <;> rfl

theorem lookup_putEntry (node : FileNode) (entries : List (String × FileNode)) :
    (putEntry name node entries).lookup other
      = if other = name then some node else entries.lookup other := by
  induction entries with
  | nil =>
    rw [putEntry, List.lookup_cons, List.lookup_nil]
    split <;> simp_all
  | cons e rest ih =>
    obtain ⟨old, kept⟩ := e
    rw [putEntry]
    split
    · next h =>
      rw [List.lookup_cons, List.lookup_cons]
      split <;> simp_all
    · next h =>
      rw [List.lookup_cons, List.lookup_cons, ih]
      split <;> simp_all

/-- Under a name that was put there is the new node, and under the others what there was. -/
theorem contents?_put (node : FileNode) (entries : List (String × FileNode)) :
    (directory (putEntry name node entries)).contents? (other :: names)
      = if other = name then node.contents? names
        else (directory entries).contents? (other :: names) := by
  rw [contents?_directory_cons, lookup_putEntry]
  split
  · rfl
  · rfl

/-! ### Making directories -/

/-- Making directories changes no file. -/
theorem contents?_makeDirectoriesFrom (h : makeDirectoriesFrom here names = .ok there)
    (path : List String) : there.contents? path = here.contents? path := by
  induction names generalizing here there path with
  | nil =>
    cases here with
    | file data => cases h
    | directory entries => rw [← Except.ok.inj h]
  | cons name rest ih =>
    cases here with
    | file data => cases h
    | directory entries =>
      rw [makeDirectoriesFrom] at h
      split at h
      · cases h
      · obtain ⟨next, hnext, h⟩ := bind_eq_ok h
        rw [← Except.ok.inj h]
        cases path with
        | nil => rfl
        | cons other more =>
          rw [contents?_put]
          split
          · next he =>
            rw [ih hnext, he, contents?_directory_cons]
            cases entries.lookup name with
            | none => exact contents?_empty
            | some old => rfl
          · rfl

/-- Neither do detours through directories that are made. -/
theorem contents?_makeAlong {kept : List String} (h : makeAlong root kept names = .ok after)
    (path : List String) : after.contents? path = root.contents? path := by
  induction names generalizing root kept with
  | nil => exact contents?_makeDirectoriesFrom h path
  | cons name rest ih =>
    rw [makeAlong] at h
    split at h
    · split at h
      · next made hmade => exact (ih h).trans (contents?_makeDirectoriesFrom hmade path)
      · cases h
      · cases h
    · exact ih h

theorem contents?_makeDirectories (h : root.makeDirectories l = .ok after) (path : List String) :
    after.contents? path = root.contents? path := by
  rw [makeDirectories] at h
  split at h
  · cases h
  · split at h
    · rw [Except.ok.inj h]
    · split at h
      · next made hmade =>
        rw [← Except.ok.inj h]
        exact contents?_makeAlong hmade path
      · cases h

/-! ### Writing a file -/

/-- **Writing a file changes that file alone.** -/
theorem contents?_writeFrom (h : writeFrom here data names = .ok there) (path : List String) :
    there.contents? path = if path = names then some data else here.contents? path := by
  fun_induction writeFrom here data names generalizing there path with
  | case1 | case3 | case4 | case5 | case7 | case9 => cases h
  | case2 old =>
    rw [← Except.ok.inj h]
    cases path <;> rfl
  | case6 name entries _ hfile =>
    rw [← Except.ok.inj h]
    match path with
    | [] => rfl
    | [other] =>
      rw [contents?_put]
      by_cases he : other = name <;> simp [he, contents?]
    | other :: deeper :: more =>
      rw [contents?_put, if_neg (c := other :: deeper :: more = [name]) nofun]
      split
      · next he =>
        rw [he, contents?_file_cons, contents?_directory_cons]
        cases hold : entries.lookup name with
        | none => rfl
        | some old =>
          cases old with
          | file => rfl
          | directory others => exact (hfile others hold).elim
      · rfl
  | case8 name rest _ entries old hold ih =>
    obtain ⟨next, hnext, h⟩ := bind_eq_ok h
    rw [← Except.ok.inj h]
    cases path with
    | nil => rfl
    | cons other more =>
      rw [contents?_put, contents?_directory_cons]
      by_cases he : other = name
      · rw [if_pos he, ih hnext, he, hold]
        simp
      · rw [if_neg he, if_neg (fun heq => he (List.cons.inj heq).1)]

theorem saved_of_write (h : root.write l data = .ok after) : Saved root l data after := by
  intro path
  rw [write] at h
  split at h
  · cases h
  · split at h
    · next hinside => rw [hinside, if_neg nofun, Except.ok.inj h]
    · next names hinside =>
      split at h
      · next written hwritten =>
        rw [← Except.ok.inj h, contents?_writeFrom hwritten, hinside]
        simp only [Option.some.injEq, eq_comm]
      · cases h

/-- **Saving writes one file.** The directories that are made on the way are no files. -/
theorem saved_of_save (h : root.save l data = .ok after) : Saved root l data after := by
  intro path
  obtain ⟨made, hmade, hwrite⟩ := bind_eq_ok h
  rw [saved_of_write hwrite path, contents?_makeDirectories hmade]

/-! ### Reading a file -/

/-- Names without detours are followed from directory to directory. -/
theorem walk_eq_file_iff (above : List FileNode) (hup : ".." ∉ names)
    (hbound : ∀ name ∈ names, name.utf8ByteSize ≤ nameBound) :
    walk above here names = .ok (.file data) ↔ here.contents? names = some data := by
  induction names generalizing above here with
  | nil =>
    cases here <;> simp [walk, contents?]
  | cons name rest ih =>
    obtain ⟨hname, hrest⟩ := List.forall_mem_cons.mp hbound
    cases here with
    | file old => exact iff_of_false nofun nofun
    | directory entries =>
      have hne : name ≠ ".." := fun he => hup (he ▸ List.mem_cons_self ..)
      rw [contents?_directory_cons]
      simp only [walk, if_neg hne, if_neg (Nat.not_lt.mpr hname)]
      cases entries.lookup name with
      | none => exact iff_of_false nofun nofun
      | some next => exact ih _ (fun h => hup (List.mem_cons_of_mem _ h)) hrest

/-- **What is read of a file is its contents**, if the path has no detours and can be put to the
system. -/
theorem read_eq_ok_iff (hrelative : l.isAbsolute = false) (hname : isNameable l = true)
    (hup : ".." ∉ l.parts) (hbound : ∀ name ∈ l.parts, name.utf8ByteSize ≤ nameBound) :
    root.read l = .ok data ↔ root.contents? l.parts = some data := by
  rw [← walk_eq_file_iff [] hup hbound]
  simp only [read, hname, find, hrelative, Bool.not_true, Bool.false_eq_true, if_false]
  split <;> simp_all

end FileNode

end Attest

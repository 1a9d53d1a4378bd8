import Attest.Console.Terminal
import Attest.Proofs.Console.Contract
import Mathlib.Data.List.Infix

/-!
# Lines that are shown as they are

A console shows a text in lines, with spaces in the place of tabs and without some control
characters. A text that has neither is shown as it is; and lines that are shown never have them, so
that no other text is shown as it is.

## Main results

* `intercalate_splitLines` — the lines of a text make it up again
* `consoleLines_of_isShown` — a text of such characters
* `consoleLines_eq_splitLines_iff` — the lines of a text are shown only if it is one
-/

namespace Attest

variable {c : Char} {cs shown line : List Char}

/-! ### Lines -/

theorem splitLines_ne_nil (cs : List Char) : splitLines cs ≠ [] := by
  fun_induction splitLines cs with
  | case1 | case2 | case3 | case4 => exact List.cons_ne_nil _ _

/-- The lines of a text make it up again. -/
theorem intercalate_splitLines (cs : List Char) : ['\n'].intercalate (splitLines cs) = cs := by
  fun_induction splitLines cs with
  | case1 => rfl
  | case2 rest ih =>
    rw [List.intercalate_cons_of_ne_nil (splitLines_ne_nil rest), ih]
    rfl
  | case3 c rest _ line lines hrest ih =>
    rw [hrest] at ih
    rw [← ih]
    cases lines <;> rfl
  | case4 c rest _ hrest => exact absurd hrest (splitLines_ne_nil rest)

theorem splitLines_injective : Function.Injective splitLines := by
  intro first second h
  rw [← intercalate_splitLines first, h, intercalate_splitLines]

/-- The characters of the lines are those of the text, but for the line feeds. -/
theorem mem_splitLines_iff : (∃ line ∈ splitLines cs, c ∈ line) ↔ c ∈ cs ∧ c ≠ '\n' := by
  fun_induction splitLines cs with
  | case1 => simp
  | case2 rest ih =>
    simp only [List.mem_cons, exists_eq_or_imp, List.not_mem_nil, false_or, ih]
    exact ⟨fun ⟨hc, hne⟩ => ⟨.inr hc, hne⟩, fun ⟨hc, hne⟩ => ⟨hc.resolve_left hne, hne⟩⟩
  | case3 x rest hx line lines hrest ih =>
    rw [hrest] at ih
    simp only [List.mem_cons, exists_eq_or_imp] at ih ⊢
    rw [or_assoc, ih]
    constructor
    · rintro (rfl | ⟨hc, hne⟩)
      · exact ⟨.inl rfl, hx⟩
      · exact ⟨.inr hc, hne⟩
    · rintro ⟨rfl | hc, hne⟩
      · exact .inl rfl
      · exact .inr ⟨hc, hne⟩
  | case4 x rest _ hrest => exact absurd hrest (splitLines_ne_nil rest)

/-! ### Tabs and control characters -/

theorem ne_tab_of_mem_expandTabs {column : Nat} (h : c ∈ expandTabs column cs) :
    c ≠ '\t' ∧ (c = ' ' ∨ c ∈ cs) := by
  induction cs generalizing column with
  | nil => cases h
  | cons x rest ih =>
    rw [expandTabs] at h
    split at h
    · rcases List.mem_append.mp h with hspace | hrest
      · cases List.eq_of_mem_replicate hspace
        exact ⟨by decide, .inl rfl⟩
      · obtain ⟨hne, hmem⟩ := ih hrest
        exact ⟨hne, hmem.imp_right (List.mem_cons_of_mem x)⟩
    · next hx =>
      rcases List.mem_cons.mp h with rfl | hrest
      · exact ⟨by simpa using hx, .inr (List.mem_cons_self ..)⟩
      · obtain ⟨hne, hmem⟩ := ih hrest
        exact ⟨hne, hmem.imp_right (List.mem_cons_of_mem x)⟩

theorem expandTabs_of_no_tab {column : Nat} (h : ∀ c ∈ cs, c ≠ '\t') :
    expandTabs column cs = cs := by
  induction cs generalizing column with
  | nil => rfl
  | cons x rest ih =>
    obtain ⟨hx, hrest⟩ := List.forall_mem_cons.mp h
    rw [expandTabs, if_neg (by simpa using hx), ih hrest]

/-- **A text without tabs and such control characters** is shown in its own lines. -/
theorem consoleLines_of_isShown (h : ∀ c ∈ cs, IsShown c) : consoleLines cs = splitLines cs := by
  have hkept : cs.filter (!isDropped ·) = cs :=
    List.filter_eq_self.mpr fun c hc => by simp [(h c hc).2]
  rw [consoleLines, hkept]
  refine (List.map_congr_left fun line hline => ?_).trans (List.map_id _)
  refine expandTabs_of_no_tab fun c hc => ?_
  exact (h c (mem_splitLines_iff.mp ⟨line, hline, hc⟩).1).1

/-- What is shown has no tabs and no such control characters. -/
theorem isShown_of_mem_consoleLines (hline : line ∈ consoleLines cs) (hc : c ∈ line) :
    IsShown c := by
  obtain ⟨kept, hkept, rfl⟩ := List.mem_map.mp hline
  obtain ⟨hne, rfl | hmem⟩ := ne_tab_of_mem_expandTabs hc
  · exact ⟨hne, rfl⟩
  · have hfilter := (mem_splitLines_iff.mp ⟨kept, hkept, hmem⟩).1
    exact ⟨hne, by simpa using (List.mem_filter.mp hfilter).2⟩

/-- A text whose lines are shown, for whatever reason, has none of them either. -/
theorem isShown_of_consoleLines_eq (h : consoleLines shown = splitLines cs) (hc : c ∈ cs) :
    IsShown c := by
  by_cases hfeed : c = '\n'
  · exact ⟨by simp [hfeed], by simp [hfeed, isDropped]⟩
  · obtain ⟨line, hline, hmem⟩ := mem_splitLines_iff.mpr ⟨hc, hfeed⟩
    exact isShown_of_mem_consoleLines (h ▸ hline) hmem

/-- **Lines that are shown as they are**: such a text is shown in the lines of another one only if
it is that text. -/
theorem consoleLines_eq_splitLines_iff (hshown : (∀ c ∈ cs, IsShown c) → ∀ c ∈ shown, IsShown c) :
    consoleLines shown = splitLines cs ↔ shown = cs ∧ ∀ c ∈ cs, IsShown c := by
  constructor
  · intro h
    have hcs : ∀ c ∈ cs, IsShown c := fun c hc => isShown_of_consoleLines_eq h hc
    rw [consoleLines_of_isShown (hshown hcs)] at h
    exact ⟨splitLines_injective h, hcs⟩
  · rintro ⟨rfl, hcs⟩
    exact consoleLines_of_isShown hcs

end Attest

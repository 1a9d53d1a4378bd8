import Attest.Proofs.Console.Verbatim

/-!
# Terminals as consoles

A terminal does what is asked of a console. Of a terminal it is known exactly which texts it shows
in their own lines.

## Main results

* `Terminal.markup_eq_linesOf_iff` — texts that a terminal shows in their own lines
* `Terminal.console_prints`, `Terminal.console_renders` — what is asked of a console
-/

namespace Attest

variable {t : Terminal} {cs : List Char} {text : String} {lines : List String}

/-! ### Texts that are sent -/

theorem sent_eq_ok_iff {sentLines : List String} :
    sent text lines = .ok sentLines ↔ Unbroken text ∧ lines = sentLines := by
  rw [sent]
  cases h : Encoding.encodeText text with
  | ok data => simp [(encodeText_eq_ok_iff.mp h).1]
  | error e =>
    refine iff_of_false nofun fun hunbroken => ?_
    cases h.symm.trans (encodeText_eq_ok_iff.mpr ⟨hunbroken.1, rfl⟩)

theorem succeeds_sent (h : Unbroken text) : Succeeds (sent text lines) :=
  ⟨lines, sent_eq_ok_iff.mpr ⟨h, rfl⟩⟩

/-- A text is shown in its own lines iff its lines are shown. -/
theorem textLines_eq_linesOf_iff :
    textLines cs = linesOf text ↔ consoleLines cs = splitLines text.toList :=
  List.map_inj_right fun _ _ => String.ofList_inj.mp

/-! ### Texts of tables -/

theorem mapM_eq_ok {α β : Type} {f : α → Except Fault β} {g : α → β} {l : List α}
    (h : ∀ x ∈ l, f x = .ok (g x)) : l.mapM f = .ok (l.map g) := by
  induction l with
  | nil => rfl
  | cons x rest ih =>
    obtain ⟨hx, hrest⟩ := List.forall_mem_cons.mp h
    rw [List.mapM_cons, hx, ih hrest]
    rfl

theorem Table.exists_mapTexts {f : String → Except Fault String} {g : String → String}
    {table : Table} (h : ∀ text ∈ table.texts, f text = .ok (g text)) :
    ∃ shown, table.mapTexts f = .ok shown ∧ shown.texts = table.texts.map g := by
  simp only [Table.texts, List.cons_append, List.forall_mem_cons, List.forall_mem_append,
    List.forall_mem_flatten] at h
  obtain ⟨htitle, hheads, hcells⟩ := h
  have hrows : table.rows.mapM (fun row => row.mapM f) = .ok (table.rows.map (·.map g)) :=
    mapM_eq_ok fun row hrow => mapM_eq_ok (hcells row hrow)
  refine ⟨⟨g table.title, table.heads.map g, table.rows.map (·.map g)⟩, ?_, ?_⟩
  · rw [Table.mapTexts, htitle, mapM_eq_ok hheads, hrows]
    rfl
  · simp [Table.texts, List.map_flatten]

theorem unbroken_join {texts : List String} (h : ∀ text ∈ texts, Unbroken text) :
    Unbroken (String.join texts) := by
  intro c hc
  rw [String.toList_join] at hc
  obtain ⟨text, htext, hc⟩ := List.mem_flatMap.mp hc
  exact h text htext c hc

namespace Terminal

theorem sane_default : Sane {} := ⟨nofun, nofun⟩

/-- A text without codes has no emoji in it. -/
theorem replaceEmoji_of_no_code (h : ∀ inside : List Char,
    (∀ c ∈ inside, c ≠ ':' ∧ Boundaries.blank.contains c = false) →
      ¬ ':' :: inside ++ [':'] <:+: cs) : t.replaceEmoji cs = cs := by
  have hfrom (fuel : Nat) : t.replaceFrom fuel cs = cs := by
    fun_induction t.replaceFrom fuel cs with
    | case1 | case2 => rfl
    | case3 fuel c rest inside after hcode ih =>
      obtain ⟨htext, hinside⟩ := readCode?_eq_some hcode
      refine absurd ?_ (h inside hinside)
      rw [htext]
      exact ⟨[], after, by simp⟩
    | case4 fuel c rest _ ih =>
      rw [ih fun inside hinside hpart =>
        h inside hinside (hpart.trans (List.suffix_cons ..).isInfix)]
  exact hfrom cs.length

theorem markup_of_plainText (h : Markup.plainText t text.toList = .ok cs) :
    t.console.markup text = sentText cs := by
  simp only [console, h]
  rfl

theorem text_eq (text : String) :
    t.console.text text = sentText (t.replaceEmoji text.toList) := by
  simp only [console]

theorem json_of_write {data : Value} (h : Json.write (.report (some 2)) data = .ok text) :
    t.console.json data = sentText text.toList := by
  simp only [console, h]
  rfl

theorem table_of_mapTexts {table shown : Table} (h : table.mapTexts t.plain = .ok shown) :
    t.console.table table = sent (String.join shown.texts) shown.lines := by
  simp only [console, h]
  rfl

theorem plain_of_plainText (h : Markup.plainText t text.toList = .ok cs) :
    t.plain text = .ok (String.ofList cs) := by
  rw [plain, h]
  rfl

variable (hsane : t.Sane)
include hsane

/-- **A text is shown in its own lines** iff nothing happens to it and it can be sent. -/
theorem markup_eq_linesOf_iff :
    t.console.markup text = .ok (linesOf text) ↔ Markup.Verbatim t text.toList ∧ Unbroken text := by
  rw [← Markup.lines_shown_iff hsane]
  cases hshown : Markup.plainText t text.toList with
  | error fault =>
    have hmarkup : t.console.markup text = .error fault := by
      simp only [console, hshown]
      rfl
    rw [hmarkup]
    exact iff_of_false nofun fun h => nomatch h.1
  | ok shown =>
    have hsent : sentText shown = .ok (linesOf text) ↔
        Unbroken (String.ofList shown) ∧ consoleLines shown = splitLines text.toList :=
      sent_eq_ok_iff.trans (and_congr_right' textLines_eq_linesOf_iff)
    rw [markup_of_plainText hshown, hsent, and_comm]
    simp only [Except.map, Except.ok.injEq]
    refine and_congr_right fun hlines => ?_
    -- nothing was taken away, so that what is sent is the text itself
    rw [Markup.eq_of_consoleLines hsane hshown hlines, String.ofList_toList]

/-! ### Texts without brackets -/

/-- What is shown of a text without brackets can be sent if the text can. -/
theorem exists_plainText (hplain : Console.Plain text) (hunbroken : Unbroken text) :
    ∃ shown, Markup.plainText t text.toList = .ok shown ∧ Unbroken (String.ofList shown) :=
  ⟨_, Markup.plainText_of_plain hplain, (hsane.shrunk_replaceEmoji _).unbroken hunbroken⟩

theorem exists_plainText_styled {before mid after : String} (hbefore : Console.Bare before)
    (hmid : Console.Bare mid) (hafter : Console.Plain after)
    (hunbroken : Unbroken (before ++ (styled "green" mid ++ after))) :
    ∃ shown, Markup.plainText t (before ++ (styled "green" mid ++ after)).toList = .ok shown ∧
      Unbroken (String.ofList shown) := by
  have htext : (before ++ (styled "green" mid ++ after)).toList
      = before.toList ++ '[' :: ("green".toList ++ ']' :: (mid.toList
        ++ '[' :: ('/' :: "green".toList ++ ']' :: after.toList))) := by
    simp [styled]
  have htag : Markup.IsTag "green".toList := Markup.isTag_cons rfl (by decide)
  have hplain := Markup.plainText_styled (t := t) htag (by decide) (by decide) hbefore.ne hmid.ne
    hafter
  have hshrunk := (hsane.shrunk_replaceEmoji before.toList).append
    ((hsane.shrunk_replaceEmoji mid.toList).append (hsane.shrunk_replaceEmoji after.toList))
  refine ⟨_, htext ▸ hplain, hshrunk.unbroken fun c hc => hunbroken c ?_⟩
  rw [htext]
  simp only [List.mem_append, List.mem_cons] at hc ⊢
  tauto

/-! ### What is asked of a console -/

/-- **A terminal prints texts without brackets**, if they can be sent. -/
theorem console_prints : t.console.Prints where
  plain text hplain hunbroken := by
    obtain ⟨shown, hshown, hsent⟩ := exists_plainText hsane hplain hunbroken
    rw [markup_of_plainText hshown]
    exact succeeds_sent hsent
  styled before mid after hbefore hmid hafter hunbroken := by
    obtain ⟨shown, hshown, hsent⟩ :=
      exists_plainText_styled hsane hbefore hmid hafter hunbroken
    rw [markup_of_plainText hshown]
    exact succeeds_sent hsent
  text text hunbroken := by
    rw [text_eq]
    exact succeeds_sent ((hsane.shrunk_replaceEmoji _).unbroken hunbroken)
  json data text htext hunbroken := by
    rw [json_of_write htext, sentText, String.ofList_toList]
    exact succeeds_sent hunbroken
  table table htexts := by
    have hplain : ∀ text ∈ table.texts,
        t.plain text = .ok (String.ofList (t.replaceEmoji text.toList)) := fun text htext =>
      plain_of_plainText (Markup.plainText_of_plain (htexts text htext).1)
    obtain ⟨shown, hshown, hall⟩ := Table.exists_mapTexts hplain
    have hunbroken : Unbroken (String.join shown.texts) := by
      refine unbroken_join fun text htext => ?_
      rw [hall] at htext
      obtain ⟨source, hsource, rfl⟩ := List.mem_map.mp htext
      exact (hsane.shrunk_replaceEmoji _).unbroken (htexts source hsource).2
    rw [table_of_mapTexts hshown]
    exact succeeds_sent hunbroken

/-- **A terminal leaves alone what means nothing to it**, and no tag is shown. -/
theorem console_renders : t.console.Renders where
  untouched text h := by
    refine (markup_eq_linesOf_iff hsane).mpr ⟨?_, h.unbroken⟩
    exact ⟨h.untagged, h.noEscape, replaceEmoji_of_no_code h.noCode, h.isShown⟩
  tagged _ htagged h := ((markup_eq_linesOf_iff hsane).mp h).1.untagged htagged

end Terminal

end Attest

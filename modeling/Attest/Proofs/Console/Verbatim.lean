import Attest.Proofs.Console.Lines
import Attest.Proofs.Console.Markup

/-!
# Texts that are shown in full

A console takes tags out of a text, and backslashes in front of brackets; it shows emoji in the
place of their codes, spaces in the place of tabs, and drops some control characters. A text is
shown in full iff none of that happens to it. That one change cannot be made good by another is a
matter of lengths: no change before the lines are made adds a character, and tabs and control
characters are never brought back.

## Main definitions

* `Shrunk` — a text that came of another one without additions
* `Terminal.Sane` — emoji are no longer than their codes, and can be shown
* `Markup.Verbatim` — texts to which nothing happens

## Main results

* `Markup.shrunk_plainText`, `length_plainText_lt` — texts do not grow, and tags are missing
* `Markup.plainText_eq_self_iff` — texts that stay as they are before the lines are made
* `Markup.lines_shown_iff` — texts that are shown in full
-/

namespace Attest

variable {t : Terminal} {cs inside after emoji shown first second third : List Char} {c : Char}

/-! ### Texts that shrink -/

/-- A text that came of another one without additions: it is no longer than that, and has no other
characters, unless they can be shown and sent. -/
structure Shrunk (cs shown : List Char) : Prop where
  length_le : shown.length ≤ cs.length
  mem : ∀ c ∈ shown, c ∈ cs ∨ IsShown c ∧ isLone c = false

namespace Shrunk

theorem refl (cs : List Char) : Shrunk cs cs := ⟨Nat.le_refl _, fun _ => .inl⟩

theorem trans (h₁ : Shrunk first second) (h₂ : Shrunk second third) : Shrunk first third :=
  ⟨Nat.le_trans h₂.length_le h₁.length_le, fun c hc => (h₂.mem c hc).elim (h₁.mem c) .inr⟩

theorem append {shown₁ shown₂ : List Char} (h₁ : Shrunk first shown₁) (h₂ : Shrunk second shown₂) :
    Shrunk (first ++ second) (shown₁ ++ shown₂) := by
  constructor
  · rw [List.length_append, List.length_append]
    exact Nat.add_le_add h₁.length_le h₂.length_le
  · intro c hc
    rcases List.mem_append.mp hc with hc | hc
    · exact (h₁.mem c hc).imp_left (List.mem_append_left second)
    · exact (h₂.mem c hc).imp_left (List.mem_append_right first)

theorem cons (c : Char) (h : Shrunk cs shown) : Shrunk (c :: cs) (c :: shown) :=
  (refl [c]).append h

/-- Leaving out characters at the start. -/
theorem skip (c : Char) (h : Shrunk cs shown) : Shrunk (c :: cs) shown :=
  ⟨Nat.le_succ_of_le h.length_le, fun x hx => (h.mem x hx).imp_left (List.mem_cons_of_mem c)⟩

theorem nil (cs : List Char) : Shrunk cs [] := ⟨Nat.zero_le _, nofun⟩

theorem replicate {n m : Nat} (h : n ≤ m) (c : Char) :
    Shrunk (List.replicate m c) (List.replicate n c) := by
  refine ⟨by rwa [List.length_replicate, List.length_replicate], fun x hx => .inl ?_⟩
  obtain ⟨hn, rfl⟩ := List.mem_replicate.mp hx
  exact List.mem_replicate.mpr ⟨by omega, rfl⟩

/-- A text of characters that can be shown and sent came of any text that is not shorter. -/
theorem of_isShown (hlength : shown.length ≤ cs.length)
    (h : ∀ c ∈ shown, IsShown c ∧ isLone c = false) : Shrunk cs shown :=
  ⟨hlength, fun c hc => .inr (h c hc)⟩

theorem unbroken (h : Shrunk cs shown) (hcs : ∀ c ∈ cs, isLone c = false) :
    Unbroken (String.ofList shown) := by
  intro c hc
  rw [String.toList_ofList] at hc
  exact (h.mem c hc).elim (hcs c) And.right

end Shrunk

/-! ### Emoji -/

/-- A terminal whose emoji are no longer than their codes, and can be shown and sent. -/
structure Terminal.Sane (t : Terminal) : Prop where
  short : ∀ name emoji, t.emoji name = some emoji → emoji.length ≤ name.length + 2
  isShown : ∀ name emoji, t.emoji name = some emoji →
    ∀ c ∈ emoji.toList, IsShown c ∧ isLone c = false

namespace Terminal

theorem readCode?_eq_some (h : readCode? cs = some (inside, after)) :
    cs = ':' :: (inside ++ ':' :: after) ∧
      ∀ c ∈ inside, c ≠ ':' ∧ Boundaries.blank.contains c = false := by
  unfold readCode? at h
  split at h
  · next rest =>
    dsimp only at h
    rw [drop_takeWhile] at h
    split at h
    · next after' hdrop =>
      cases h
      refine ⟨by rw [← hdrop, List.takeWhile_append_dropWhile], fun c hc => ?_⟩
      simpa using List.mem_takeWhile_imp hc
    · cases h
  · cases h

/-- The selector of a variant is shorter than what stands for it. -/
theorem length_variantOf_le (inside : List Char) :
    (variantOf inside).1.length + (variantOf inside).2.length ≤ inside.length := by
  have hsuffix {suffix : String} (h : suffix.toList.isSuffixOf inside = true) :
      suffix.length ≤ inside.length := by
    rw [← String.length_toList]
    exact (List.isSuffixOf_iff_suffix.mp h).length_le
  have hname (n : Nat) : (String.ofList (inside.take (inside.length - n))).length
      = inside.length - n := by
    rw [String.length_ofList, List.length_take]
    omega
  simp only [variantOf]
  split
  · next h =>
    have hle : 6 ≤ inside.length := hsuffix h
    have hselector : "\uFE0F".length = 1 := rfl
    have hlength : "-emoji".length = 6 := rfl
    rw [hname, hlength, hselector]
    omega
  · split
    · next h =>
      have hle : 5 ≤ inside.length := hsuffix h
      have hselector : "\uFE0E".length = 1 := rfl
      have hlength : "-text".length = 5 := rfl
      rw [hname, hlength, hselector]
      omega
    · rw [String.length_ofList]
      exact Nat.le_refl _

theorem variantOf_selector (inside : List Char) :
    (variantOf inside).2 = "\uFE0F" ∨ (variantOf inside).2 = "\uFE0E" ∨
      (variantOf inside).2 = "" := by
  simp only [variantOf]
  split
  · exact .inl rfl
  · split
    · exact .inr (.inl rfl)
    · exact .inr (.inr rfl)

theorem isShown_selector (h : c ∈ (variantOf inside).2.toList) :
    IsShown c ∧ isLone c = false := by
  rcases variantOf_selector inside with hselector | hselector | hselector
  · rw [hselector] at h
    cases List.mem_singleton.mp h
    exact ⟨⟨by decide, rfl⟩, rfl⟩
  · rw [hselector] at h
    cases List.mem_singleton.mp h
    exact ⟨⟨by decide, rfl⟩, rfl⟩
  · rw [hselector] at h
    cases h

theorem emojiOf?_eq (inside : List Char) : t.emojiOf? inside
    = (t.emoji (lowerText (variantOf inside).1)).map fun emoji =>
      (emoji ++ (variantOf inside).2).toList := rfl

/-- What is shown in the place of a code is no longer than the code. -/
theorem Sane.shrunk_code (hsane : t.Sane) (inside : List Char) :
    Shrunk (':' :: inside ++ [':']) ((t.emojiOf? inside).getD (':' :: inside ++ [':'])) := by
  cases h : t.emojiOf? inside with
  | none => exact .refl _
  | some emoji =>
    rw [emojiOf?_eq] at h
    obtain ⟨found, hfound, rfl⟩ := Option.map_eq_some_iff.mp h
    have hlower : (lowerText (variantOf inside).1).length = (variantOf inside).1.length := by
      rw [lowerText, String.length_ofList, List.length_map, String.length_toList]
    have hshort := hsane.short _ _ hfound
    have hvariant := length_variantOf_le inside
    refine .of_isShown ?_ fun c hc => ?_
    · rw [Option.getD_some, String.length_toList, String.length_append, List.length_append,
        List.length_cons, List.length_singleton]
      omega
    · rw [Option.getD_some, String.toList_append] at hc
      rcases List.mem_append.mp hc with hc | hc
      · exact hsane.isShown _ _ hfound c hc
      · exact isShown_selector hc

theorem Sane.shrunk_replaceFrom (hsane : t.Sane) (fuel : Nat) (cs : List Char) :
    Shrunk cs (t.replaceFrom fuel cs) := by
  fun_induction t.replaceFrom fuel cs with
  | case1 cs => exact .refl cs
  | case2 => exact .refl []
  | case3 fuel c rest inside after hcode ih =>
    have htext : c :: rest = (':' :: inside ++ [':']) ++ after := by
      rw [(readCode?_eq_some hcode).1, List.append_assoc]
      rfl
    rw [htext]
    exact (hsane.shrunk_code inside).append ih
  | case4 fuel c rest _ ih => exact ih.cons c

/-- Emoji do not make a text longer. -/
theorem Sane.shrunk_replaceEmoji (hsane : t.Sane) (cs : List Char) :
    Shrunk cs (t.replaceEmoji cs) := hsane.shrunk_replaceFrom cs.length cs

end Terminal

namespace Markup

/-! ### Backslashes -/

theorem shrunk_unescape (cs : List Char) : Shrunk cs (unescape cs) := by
  fun_induction unescape cs with
  | case1 rest ih => exact (ih.cons '[').skip '\\'
  | case2 c rest _ ih => exact ih.cons c
  | case3 => exact .refl []

theorem unescape_of_length (h : (unescape cs).length = cs.length) : unescape cs = cs := by
  fun_induction unescape cs with
  | case1 rest ih =>
    have hle := (shrunk_unescape rest).length_le
    simp only [List.length_cons] at h
    omega
  | case2 x rest _ ih => rw [ih (Nat.succ.inj h)]
  | case3 => rfl

/-- No backslash is taken out iff none stands in front of a bracket. -/
theorem unescape_eq_self_iff : unescape cs = cs ↔ ¬ ['\\', '['] <:+: cs := by
  fun_induction unescape cs with
  | case1 rest =>
    refine iff_of_false (fun h => ?_) (not_not_intro ⟨[], rest, rfl⟩)
    cases (List.cons.inj h).1
  | case2 c rest hne ih =>
    rw [List.cons_inj_right, ih, List.infix_cons_iff, not_or]
    refine (and_iff_right ?_).symm
    rintro ⟨after, hafter⟩
    obtain ⟨rfl, hrest⟩ := List.cons.inj hafter
    exact hne after rfl hrest.symm
  | case3 => exact iff_of_true rfl (by simp)

/-! ### Tags -/

/-- The characters of a piece that are shown. -/
def Piece.chars : Piece → List Char
  | .text cs => cs
  | .tag _ => []

/-- The characters of pieces that are shown, up to emoji. -/
def charsOf (pieces : List Piece) : List Char := pieces.flatMap Piece.chars

theorem charsOf_append (pieces more : List Piece) :
    charsOf (pieces ++ more) = charsOf pieces ++ charsOf more := List.flatMap_append

theorem shrunk_showPieces (hsane : t.Sane) {styles : List String} {pieces : List Piece}
    (h : showPieces t styles pieces = .ok shown) : Shrunk (charsOf pieces) shown := by
  fun_induction showPieces t styles pieces generalizing shown with
  | case1 => exact Except.ok.inj h ▸ .refl []
  | case2 styles cs rest ih =>
    obtain ⟨after, hafter, h⟩ := bind_eq_ok h
    exact Except.ok.inj h ▸ (hsane.shrunk_replaceEmoji cs).append (ih hafter)
  | case3 styles inside rest styles' _ ih => exact ih h
  | case4 => cases h
  | case5 styles inside rest _ ih => exact ih h

/-- What a tag in a text came from: backslashes, and the tag in its brackets. -/
def Found.source (found : Found) : List Char :=
  found.before ++ (List.replicate found.slashes '\\' ++ ('[' :: found.inside ++ [']']))

theorem charsOf_pieces (found : Found) : charsOf found.pieces
    = unescape found.before ++ (List.replicate (found.slashes / 2) '\\'
      ++ if found.slashes % 2 = 0 then [] else '[' :: found.inside ++ [']']) := by
  simp only [charsOf, Found.pieces, List.flatMap_cons, List.flatMap_nil, List.append_nil,
    Piece.chars]
  by_cases h : found.slashes % 2 = 0 <;> simp only [h, if_true, if_false]

theorem shrunk_pieces (found : Found) : Shrunk found.source (charsOf found.pieces) := by
  rw [charsOf_pieces]
  refine (shrunk_unescape found.before).append (.append (.replicate (Nat.div_le_self ..) _) ?_)
  split
  · exact .nil _
  · exact .refl _

/-- The tag is missing, or a backslash in front of it. -/
theorem length_pieces_lt (found : Found) :
    (charsOf found.pieces).length < found.source.length := by
  have hbefore := (shrunk_unescape found.before).length_le
  rw [charsOf_pieces]
  simp only [Found.source, List.length_append, List.length_replicate, List.length_cons,
    List.length_nil]
  split
  · rw [List.length_nil]
    omega
  · simp only [List.length_append, List.length_cons, List.length_nil]
    omega

theorem source_of_firstTag? {found : Found} (h : firstTag? cs = some found) :
    cs = found.source ++ found.after := by
  rw [(firstTag?_eq_some h).1, Found.source]
  simp only [List.append_assoc, List.cons_append, List.nil_append]

theorem shrunk_splitMarkup (fuel : Nat) (cs : List Char) :
    Shrunk cs (charsOf (splitMarkup fuel cs)) := by
  fun_induction splitMarkup fuel cs with
  | case1 cs => exact .nil cs
  | case2 fuel cs found hfound ih =>
    rw [charsOf_append, source_of_firstTag? hfound]
    exact (shrunk_pieces found).append ih
  | case3 fuel cs _ =>
    have hone : charsOf [.text (unescape cs)] = unescape cs := List.append_nil _
    rw [hone]
    exact shrunk_unescape cs

theorem length_splitMarkup_lt {fuel : Nat} (h : Tagged cs) :
    (charsOf (splitMarkup (fuel + 1) cs)).length < cs.length := by
  cases hfound : firstTag? cs with
  | none => exact absurd h (firstTag?_eq_none_iff.mp hfound)
  | some found =>
    have hpieces := length_pieces_lt found
    have hafter := (shrunk_splitMarkup fuel found.after).length_le
    simp only [splitMarkup, hfound]
    rw [charsOf_append, List.length_append]
    conv_rhs => rw [source_of_firstTag? hfound, List.length_append]
    omega

/-! ### Whole texts -/

theorem shrunk_plainText (hsane : t.Sane) (h : plainText t cs = .ok shown) : Shrunk cs shown :=
  (shrunk_splitMarkup (cs.length + 1) cs).trans (shrunk_showPieces hsane h)

/-- **A text with a tag in it gets shorter.** -/
theorem length_plainText_lt (hsane : t.Sane) (htagged : Tagged cs)
    (h : plainText t cs = .ok shown) : shown.length < cs.length :=
  Nat.lt_of_le_of_lt (shrunk_showPieces hsane h).length_le (length_splitMarkup_lt htagged)

/-- A text in which nothing is taken for markup or for the code of an emoji, and all of whose
characters can be shown. -/
structure Verbatim (t : Terminal) (cs : List Char) : Prop where
  untagged : ¬ Tagged cs
  noEscape : ¬ ['\\', '['] <:+: cs
  noEmoji : t.replaceEmoji cs = cs
  isShown : ∀ c ∈ cs, IsShown c

/-- A text without brackets is shown in full unless there are emoji or control characters in it. -/
theorem verbatim_of_plain (hplain : '[' ∉ cs) (hemoji : t.replaceEmoji cs = cs)
    (hshown : ∀ c ∈ cs, IsShown c) : Verbatim t cs where
  untagged := untagged_of_plain hplain
  noEscape := fun h => hplain (h.subset (by simp))
  noEmoji := hemoji
  isShown := hshown

/-- A text stays as it is, before the lines are made, iff there is neither a tag nor a backslash in
front of a bracket nor the code of an emoji in it. -/
theorem plainText_eq_self_iff (hsane : t.Sane) :
    plainText t cs = .ok cs ↔ ¬ Tagged cs ∧ ¬ ['\\', '['] <:+: cs ∧ t.replaceEmoji cs = cs := by
  rw [← unescape_eq_self_iff]
  constructor
  · intro h
    have huntagged : ¬ Tagged cs := fun htagged =>
      Nat.lt_irrefl _ (length_plainText_lt hsane htagged h)
    rw [plainText_of_untagged huntagged] at h
    have hself := Except.ok.inj h
    have hunescape := (shrunk_unescape cs).length_le
    have hemoji := (hsane.shrunk_replaceEmoji (unescape cs)).length_le
    rw [hself] at hemoji
    have hsame : unescape cs = cs := unescape_of_length (Nat.le_antisymm hunescape hemoji)
    rw [hsame] at hself
    exact ⟨huntagged, hsame, hself⟩
  · rintro ⟨huntagged, hunescape, hemoji⟩
    rw [plainText_of_untagged huntagged, hunescape, hemoji]

/-- Lines of a text that are shown are shown of the text itself. -/
theorem eq_of_consoleLines (hsane : t.Sane) (h : plainText t cs = .ok shown)
    (hlines : consoleLines shown = splitLines cs) : shown = cs :=
  ((consoleLines_eq_splitLines_iff fun hcs c hc =>
    ((shrunk_plainText hsane h).mem c hc).elim (hcs c) And.left).mp hlines).1

/-- **A text is shown in full** iff nothing in it is taken for markup or for the code of an emoji,
and there are no tabs and no dropped control characters in it. -/
theorem lines_shown_iff (hsane : t.Sane) :
    (plainText t cs).map consoleLines = .ok (splitLines cs) ↔ Verbatim t cs := by
  constructor
  · intro h
    cases hshown : plainText t cs with
    | error fault =>
      rw [hshown] at h
      cases h
    | ok shown =>
      rw [hshown] at h
      have hlines := Except.ok.inj h
      obtain rfl := eq_of_consoleLines hsane hshown hlines
      obtain ⟨huntagged, hescape, hemoji⟩ := (plainText_eq_self_iff hsane).mp hshown
      exact ⟨huntagged, hescape, hemoji, fun c => isShown_of_consoleLines_eq hlines⟩
  · intro h
    have hself := (plainText_eq_self_iff hsane).mpr ⟨h.untagged, h.noEscape, h.noEmoji⟩
    rw [hself]
    exact congrArg Except.ok (consoleLines_of_isShown h.isShown)

end Markup

end Attest

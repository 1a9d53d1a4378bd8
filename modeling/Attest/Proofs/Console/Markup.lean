import Attest.Proofs.Console.Contract

/-!
# Texts and tags

A text of a command is put together from texts of its own, with tags in them, and names that come
from elsewhere. Where a name has no bracket in it, it is shown as it is, up to emoji, and the tags
around it are taken out.

## Main results

* `Markup.firstTag?_eq_none_iff` — a tag is found iff there is one
* `Markup.plainText_of_plain` — a text without brackets
* `Markup.plainText_styled` — a text with one style
-/

namespace Attest

namespace Markup

variable {t : Terminal} {cs before inside after : List Char} {c : Char} {found : Found}

/-! ### Finding tags -/

/-- A tag is read from the front of a text iff it is there. -/
theorem readTag?_eq_some_iff :
    readTag? cs = some (inside, after) ↔ cs = '[' :: (inside ++ ']' :: after) ∧ IsTag inside := by
  constructor
  · intro h
    unfold readTag? at h
    split at h
    · next c rest =>
      dsimp only at h
      rw [drop_takeWhile] at h
      have hrest := List.takeWhile_append_dropWhile (p := fun x => x ≠ ']' && x ≠ '[') (l := rest)
      have htail : ∀ x ∈ rest.takeWhile fun x => x ≠ ']' && x ≠ '[', x ≠ ']' ∧ x ≠ '[' := by
        intro x hx
        simpa using List.mem_takeWhile_imp hx
      split at h
      · next rest' hdrop =>
        split at h
        · next hc =>
          simp only [Option.some.injEq, Prod.mk.injEq] at h
          obtain ⟨rfl, rfl⟩ := h
          rw [hdrop] at hrest
          exact ⟨by rw [List.cons_append, hrest], c, _, rfl, hc, htail⟩
        · cases h
      · cases h
    · cases h
  · rintro ⟨rfl, c, tail, rfl, hc, htail⟩
    have htake : (tail ++ ']' :: after).takeWhile (fun x => x ≠ ']' && x ≠ '[') = tail := by
      rw [List.takeWhile_append_of_pos (by simpa using htail)]
      simp
    rw [List.cons_append, readTag?]
    simp only [htake, List.drop_left, hc, if_true]

theorem firstTag?_cons (c : Char) (rest : List Char) :
    firstTag? (c :: rest)
      = match readTag? ((c :: rest).drop ((c :: rest).takeWhile (· == '\\')).length) with
        | some (inside, after) =>
          some ⟨[], ((c :: rest).takeWhile (· == '\\')).length, inside, after⟩
        | none => (firstTag? rest).map fun found => { found with before := c :: found.before } :=
  rfl

/-- What is found is in the text, behind its backslashes. -/
theorem firstTag?_eq_some (h : firstTag? cs = some found) :
    cs = found.before ++ (List.replicate found.slashes '\\'
      ++ '[' :: (found.inside ++ ']' :: found.after)) ∧ IsTag found.inside := by
  induction cs generalizing found with
  | nil => cases h
  | cons c rest ih =>
    rw [firstTag?_cons] at h
    split at h
    · next inside after htag =>
      obtain ⟨htext, hinside⟩ := readTag?_eq_some_iff.mp htag
      cases h
      refine ⟨?_, hinside⟩
      have hslashes : (c :: rest).takeWhile (· == '\\')
          = List.replicate ((c :: rest).takeWhile (· == '\\')).length '\\' := by
        refine List.eq_replicate_iff.mpr ⟨rfl, fun x hx => ?_⟩
        simpa using List.mem_takeWhile_imp hx
      rw [drop_takeWhile] at htext
      rw [List.nil_append, ← htext, ← hslashes, List.takeWhile_append_dropWhile]
    · next hnone =>
      obtain ⟨inner, hinner, rfl⟩ := Option.map_eq_some_iff.mp h
      obtain ⟨hrest, hinside⟩ := ih hinner
      exact ⟨congrArg (c :: ·) hrest, hinside⟩

/-- **A tag is found iff there is one.** -/
theorem firstTag?_eq_none_iff : firstTag? cs = none ↔ ¬ Tagged cs := by
  constructor
  · rintro h ⟨before, inside, after, rfl, hinside⟩
    induction before with
    | nil =>
      rw [List.nil_append, firstTag?_cons] at h
      have htag : readTag? ('[' :: (inside ++ ']' :: after)) = some (inside, after) :=
        readTag?_eq_some_iff.mpr ⟨rfl, hinside⟩
      simp [htag] at h
    | cons b before ih =>
      rw [List.cons_append, firstTag?_cons] at h
      split at h
      · cases h
      · exact ih (Option.map_eq_none_iff.mp h)
  · intro h
    cases hfound : firstTag? cs with
    | none => rfl
    | some found =>
      obtain ⟨htext, hinside⟩ := firstTag?_eq_some hfound
      exact absurd ⟨_, _, _, by rw [htext, ← List.append_assoc], hinside⟩ h

/-- Before the first tag there may be any text without brackets and backslashes. -/
theorem firstTag?_append (hbefore : ∀ x ∈ before, x ≠ '[' ∧ x ≠ '\\') (hinside : IsTag inside)
    (after : List Char) :
    firstTag? (before ++ '[' :: (inside ++ ']' :: after)) = some ⟨before, 0, inside, after⟩ := by
  induction before with
  | nil =>
    have htag : readTag? ('[' :: (inside ++ ']' :: after)) = some (inside, after) :=
      readTag?_eq_some_iff.mpr ⟨rfl, hinside⟩
    rw [List.nil_append, firstTag?_cons]
    simp [htag]
  | cons b before ih =>
    obtain ⟨⟨hbracket, hslash⟩, hrest⟩ := List.forall_mem_cons.mp hbefore
    have hnone : readTag? (b :: (before ++ '[' :: (inside ++ ']' :: after))) = none := by
      cases h : readTag? (b :: (before ++ '[' :: (inside ++ ']' :: after))) with
      | none => rfl
      | some r => exact absurd (List.cons.inj (readTag?_eq_some_iff.mp h).1).1 hbracket
    rw [List.cons_append, firstTag?_cons, ih hrest]
    simp [hslash, hnone]

/-! ### Texts without brackets -/

theorem unescape_of_plain (h : '[' ∉ cs) : unescape cs = cs := by
  fun_induction unescape cs with
  | case1 rest => exact absurd (by simp) h
  | case2 c rest _ ih => rw [ih fun hrest => h (List.mem_cons_of_mem _ hrest)]
  | case3 => rfl

theorem splitMarkup_of_untagged {fuel : Nat} (h : ¬ Tagged cs) :
    splitMarkup (fuel + 1) cs = [.text (unescape cs)] := by
  rw [splitMarkup, firstTag?_eq_none_iff.mpr h]

theorem showPieces_nil (styles : List String) : showPieces t styles [] = .ok [] := by
  rw [showPieces]

theorem showPieces_text (styles : List String) (cs : List Char) (rest : List Piece) :
    showPieces t styles (.text cs :: rest)
      = (showPieces t styles rest).map (t.replaceEmoji cs ++ ·) := by
  rw [showPieces]
  cases showPieces t styles rest <;> rfl

/-- Without tags, only emoji and brackets behind backslashes are shown in another way. -/
theorem plainText_of_untagged (h : ¬ Tagged cs) :
    plainText t cs = .ok (t.replaceEmoji (unescape cs)) := by
  rw [plainText, splitMarkup_of_untagged h, showPieces_text, showPieces_nil]
  exact congrArg Except.ok (List.append_nil _)

/-- **A text without brackets** is shown as it is, up to emoji. -/
theorem plainText_of_plain (h : '[' ∉ cs) : plainText t cs = .ok (t.replaceEmoji cs) := by
  rw [plainText_of_untagged (untagged_of_plain h), unescape_of_plain h]

/-! ### Texts with a style -/

theorem splitMarkup_append {fuel : Nat} (hbefore : ∀ x ∈ before, x ≠ '[' ∧ x ≠ '\\')
    (hinside : IsTag inside) (after : List Char) :
    splitMarkup (fuel + 1) (before ++ '[' :: (inside ++ ']' :: after))
      = .text before :: .text [] :: .tag inside :: splitMarkup fuel after := by
  have hplain : unescape before = before := unescape_of_plain fun hmem => (hbefore _ hmem).1 rfl
  rw [splitMarkup, firstTag?_append hbefore hinside]
  simp only [Found.pieces, hplain]
  rfl

theorem showPieces_opening {name : List Char} (hname : name.head? ≠ some '/')
    (styles : List String) (rest : List Piece) :
    showPieces t styles (.tag name :: rest)
      = showPieces t (t.styleName (nameOf name) :: styles) rest := by
  rw [showPieces]
  rintro inside rfl
  exact hname rfl

theorem showPieces_closing {name : List Char} (hname : nameOf name ≠ "") (styles : List String)
    (rest : List Piece) :
    showPieces t (t.styleName (nameOf name) :: styles) (.tag ('/' :: name) :: rest)
      = showPieces t styles rest := by
  simp [showPieces, switchOff?, hname]

/-- **A text with one style** is shown without the two tags. -/
theorem plainText_styled {name mid : List Char} (htag : IsTag name)
    (hopening : name.head? ≠ some '/') (hname : nameOf name ≠ "")
    (hbefore : ∀ x ∈ before, x ≠ '[' ∧ x ≠ '\\') (hmid : ∀ x ∈ mid, x ≠ '[' ∧ x ≠ '\\')
    (hafter : '[' ∉ after) :
    plainText t (before ++ '[' :: (name ++ ']' :: (mid ++ '[' :: ('/' :: name ++ ']' :: after))))
      = .ok (t.replaceEmoji before ++ (t.replaceEmoji mid ++ t.replaceEmoji after)) := by
  have hclosing : IsTag ('/' :: name) := by
    obtain ⟨c, tail, rfl, hc, htail⟩ := htag
    refine ⟨'/', c :: tail, rfl, rfl, List.forall_mem_cons.mpr ⟨?_, htail⟩⟩
    constructor <;> rintro rfl <;> cases hc
  have hempty : t.replaceEmoji [] = [] := rfl
  have hfuel : ∃ fuel, (before ++ '[' :: (name ++ ']' :: (mid ++ '[' ::
      ('/' :: name ++ ']' :: after)))).length + 1 = fuel + 1 + 1 + 1 := by
    refine ⟨before.length + name.length + mid.length + name.length + after.length + 3, ?_⟩
    simp only [List.length_append, List.length_cons]
    omega
  obtain ⟨fuel, hfuel⟩ := hfuel
  rw [plainText, hfuel, splitMarkup_append hbefore htag, splitMarkup_append hmid hclosing,
    splitMarkup_of_untagged (untagged_of_plain hafter), unescape_of_plain hafter]
  simp only [showPieces_text, showPieces_opening hopening, showPieces_closing hname, showPieces_nil,
    hempty, Except.map, List.nil_append, List.append_nil]

end Markup

end Attest

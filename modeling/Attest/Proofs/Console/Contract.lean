import Attest.Console.Basic
import Attest.Console.Line
import Attest.Console.Markup
import Attest.Proofs.Text.Sending
import Attest.Proofs.Value.Shown

/-!
# What is asked of a console

Commands show texts of their own, with names in them that come from elsewhere, and they do not look
into what a console makes of them. Two things are relied on. A text without brackets is printed,
with or without a style; so a command with plain names comes to its end. And a text that has nothing
in it that means something to a console is printed in its own lines, which is not so for a text with
a tag in it.

Nothing is printed that has half a pair of surrogates in it.

## Main definitions

* `Console.Plain`, `Console.Bare` — texts without brackets
* `Console.Prints` — a console that prints such texts
* `Markup.IsTag`, `Markup.Tagged` — texts with a tag in them
* `Console.Untouched` — texts that mean nothing to a console
* `Console.Renders` — a console that leaves those as they are, and takes tags for markup
-/

namespace Attest

/-- A character that a console shows as it is. Line feeds end lines. -/
def IsShown (c : Char) : Prop := c ≠ '\t' ∧ isDropped c = false

/-- The lines of a text. -/
def linesOf (text : String) : List String := (splitLines text.toList).map String.ofList

namespace Markup

/-- The inside of a tag: it begins like one, and has no brackets in it. -/
def IsTag (inside : List Char) : Prop :=
  ∃ c tail, inside = c :: tail ∧ startsTag c = true ∧ ∀ x ∈ tail, x ≠ ']' ∧ x ≠ '['

theorem isTag_cons {c : Char} {tail : List Char} (hc : startsTag c = true)
    (htail : ']' ∉ tail ∧ '[' ∉ tail) : IsTag (c :: tail) :=
  ⟨c, tail, rfl, hc, fun _ hx => ⟨fun he => htail.1 (he ▸ hx), fun he => htail.2 (he ▸ hx)⟩⟩

/-- There is a tag in the text. -/
def Tagged (cs : List Char) : Prop :=
  ∃ before inside after, cs = before ++ '[' :: (inside ++ ']' :: after) ∧ IsTag inside

/-- A tag in a part of a text is one in the text. -/
theorem Tagged.mono {part cs : List Char} (h : Tagged part) (hpart : part <:+: cs) :
    Tagged cs := by
  obtain ⟨before, inside, after, rfl, hinside⟩ := h
  obtain ⟨left, right, rfl⟩ := hpart
  refine ⟨left ++ before, inside, after ++ right, ?_, hinside⟩
  simp only [List.append_assoc, List.cons_append]

theorem untagged_of_plain {cs : List Char} (h : '[' ∉ cs) : ¬ Tagged cs := by
  rintro ⟨before, inside, after, rfl, -⟩
  exact h (by simp)

end Markup

namespace Console

/-! ### Texts without brackets -/

/-- A text without opening brackets, so that there is no markup in it. -/
def Plain (text : String) : Prop := '[' ∉ text.toList

instance (text : String) : Decidable (Plain text) := inferInstanceAs (Decidable ('[' ∉ text.toList))

theorem Plain.append {first second : String} (hfirst : Plain first) (hsecond : Plain second) :
    Plain (first ++ second) := by
  rw [Plain, String.toList_append, List.mem_append]
  exact not_or.mpr ⟨hfirst, hsecond⟩

/-- A text without opening brackets and backslashes. -/
def Bare (text : String) : Prop := '[' ∉ text.toList ∧ '\\' ∉ text.toList

instance (text : String) : Decidable (Bare text) :=
  inferInstanceAs (Decidable ('[' ∉ text.toList ∧ '\\' ∉ text.toList))

theorem Bare.ne {text : String} (h : Bare text) : ∀ x ∈ text.toList, x ≠ '[' ∧ x ≠ '\\' :=
  fun _ hx => ⟨fun he => h.1 (he ▸ hx), fun he => h.2 (he ▸ hx)⟩

theorem plain_natural (n : Nat) : Plain (toString n) := by
  show '[' ∉ (Nat.repr n).toList
  rw [Nat.toList_repr]
  intro hmem
  exact absurd (Nat.isDigit_of_mem_toDigits (by decide) (by decide) hmem) (by decide)

/-- A console that prints texts without brackets, if they can be sent. -/
structure Prints (k : Console) : Prop where
  plain : ∀ text, Plain text → Unbroken text → Succeeds (k.markup text)
  /-- A part of such a text may be in a colour. -/
  styled : ∀ before mid after, Bare before → Bare mid → Plain after →
    Unbroken (before ++ (styled "green" mid ++ after)) →
    Succeeds (k.markup (before ++ (styled "green" mid ++ after)))
  /-- Where no markup is looked for, there may be brackets. -/
  text : ∀ text, Unbroken text → Succeeds (k.text text)
  json : ∀ data text, Json.write (.report (some 2)) data = .ok text → Unbroken text →
    Succeeds (k.json data)
  table : ∀ t : Table, (∀ text ∈ t.texts, Plain text ∧ Unbroken text) → Succeeds (k.table t)

/-! ### Texts without a meaning -/

/-- A text that means nothing to a console: no part of it is a tag, a bracket behind a backslash or
the code of an emoji, and its characters can be shown and sent. -/
structure Untouched (text : String) : Prop where
  untagged : ¬ Markup.Tagged text.toList
  noEscape : ¬ ['\\', '['] <:+: text.toList
  noCode : ∀ inside : List Char, (∀ c ∈ inside, c ≠ ':' ∧ Boundaries.blank.contains c = false) →
    ¬ ':' :: inside ++ [':'] <:+: text.toList
  isShown : ∀ c ∈ text.toList, IsShown c
  unbroken : Unbroken text

/-- A console that prints a text that means nothing to it in its own lines, and takes every tag in a
text for markup. -/
structure Renders (k : Console) : Prop where
  untouched : ∀ text, Untouched text → k.markup text = .ok (linesOf text)
  tagged : ∀ text, Markup.Tagged text.toList → k.markup text ≠ .ok (linesOf text)

end Console

end Attest

import Attest.Json.Writer
import Attest.Text.Encoding
import Mathlib.Data.List.TakeWhile

/-!
# Texts that can be sent

A text has bytes in UTF-8 iff there is no half of a pair of surrogates in it. What texts are put
together from can be sent if the texts can, and what is in a text that can be sent can be sent.

## Main results

* `encodeText_eq_ok_iff` — which texts have bytes
* `infix_joined`, `mem_joined` — texts with a separator between them
* `Unbroken.append`, `Unbroken.joined`, `Unbroken.mono` — texts made of texts
-/

namespace Attest

variable {sep text : String} {texts : List String} {c : Char}

/-! ### Texts with a separator between them -/

theorem infix_intercalate {sep line : List Char} {lines : List (List Char)} (h : line ∈ lines) :
    line <:+: sep.intercalate lines := by
  induction lines with
  | nil => cases h
  | cons first rest ih =>
    rcases List.mem_cons.mp h with rfl | hrest
    · cases rest with
      | nil => exact ⟨[], [], by simp⟩
      | cons second rest =>
        rw [List.intercalate_cons_of_ne_nil (List.cons_ne_nil _ _), List.append_assoc]
        exact (List.prefix_append _ _).isInfix
    · rw [List.intercalate_cons_of_ne_nil (List.ne_nil_of_mem hrest)]
      exact (ih hrest).trans (List.suffix_append _ _).isInfix

theorem mem_of_mem_intercalate {sep : List Char} {lines : List (List Char)}
    (h : c ∈ sep.intercalate lines) : c ∈ sep ∨ ∃ line ∈ lines, c ∈ line := by
  induction lines with
  | nil => cases h
  | cons first rest ih =>
    cases rest with
    | nil =>
      rw [List.intercalate_singleton] at h
      exact .inr ⟨first, List.mem_cons_self .., h⟩
    | cons second rest =>
      rw [List.intercalate_cons_of_ne_nil (List.cons_ne_nil _ _)] at h
      rcases List.mem_append.mp h with h | h
      · rcases List.mem_append.mp h with h | h
        · exact .inr ⟨first, List.mem_cons_self .., h⟩
        · exact .inl h
      · refine (ih h).imp_right ?_
        rintro ⟨line, hline, hc⟩
        exact ⟨line, List.mem_cons_of_mem _ hline, hc⟩

theorem infix_joined (h : text ∈ texts) : text.toList <:+: (sep.intercalate texts).toList := by
  rw [String.toList_intercalate]
  exact infix_intercalate (List.mem_map_of_mem h)

theorem mem_joined (h : c ∈ (sep.intercalate texts).toList) :
    c ∈ sep.toList ∨ ∃ text ∈ texts, c ∈ text.toList := by
  rw [String.toList_intercalate] at h
  refine (mem_of_mem_intercalate h).imp_right ?_
  rintro ⟨_, hline, hc⟩
  obtain ⟨text, htext, rfl⟩ := List.mem_map.mp hline
  exact ⟨text, htext, hc⟩

/-! ### Bytes -/

theorem drop_takeWhile (p : Char → Bool) (cs : List Char) :
    cs.drop (cs.takeWhile p).length = cs.dropWhile p := by
  induction cs with
  | nil => rfl
  | cons c rest ih => by_cases hc : p c <;> simp [hc, ih]

/-- **A text has bytes** in UTF-8 iff there are no half pairs in it. -/
theorem encodeText_eq_ok_iff {data : List UInt8} :
    Encoding.encodeText text = .ok data ↔ Unbroken text ∧ text.toUTF8.toList = data := by
  have hnone : text.toList.dropWhile (fun c => !isLone c || false) = [] ↔ Unbroken text := by
    simp [Unbroken, List.dropWhile_eq_nil_iff]
  rw [← hnone, Encoding.encodeText, Encoding.encodeError?]
  simp only [drop_takeWhile]
  cases text.toList.dropWhile fun c => !isLone c || false <;> simp

/-! ### Texts made of texts -/

theorem isLone_of_lt (h : c.toNat < firstStandIn) : isLone c = false := by
  rw [isLone, surrogate?, if_neg (Nat.not_le.mpr h)]
  rfl

theorem Unbroken.append {first second : String} (hfirst : Unbroken first)
    (hsecond : Unbroken second) : Unbroken (first ++ second) := by
  intro c hc
  rw [String.toList_append] at hc
  exact (List.mem_append.mp hc).elim (hfirst c) (hsecond c)

theorem Unbroken.joined (hsep : Unbroken sep) (h : ∀ text ∈ texts, Unbroken text) :
    Unbroken (sep.intercalate texts) := by
  intro c hc
  rcases mem_joined hc with hc | ⟨text, htext, hc⟩
  · exact hsep c hc
  · exact h text htext c hc

theorem Unbroken.mono {part : String} (h : Unbroken text) (hpart : part.toList <:+: text.toList) :
    Unbroken part :=
  fun c hc => h c (hpart.subset hc)

theorem isLone_of_digit {n : Nat} (h : c ∈ Nat.toDigits 10 n) : isLone c = false := by
  have hdigit := Nat.isDigit_of_mem_toDigits (by decide) (by decide) h
  simp only [Char.isDigit, Bool.and_eq_true, decide_eq_true_eq] at hdigit
  have hle : c.toNat ≤ 57 := hdigit.2
  refine isLone_of_lt ?_
  rw [firstStandIn]
  omega

theorem unbroken_natural (n : Nat) : Unbroken (toString n) := by
  have hdigits : (toString n).toList = Nat.toDigits 10 n := Nat.toList_repr
  intro c hc
  exact isLone_of_digit (hdigits ▸ hc)

end Attest

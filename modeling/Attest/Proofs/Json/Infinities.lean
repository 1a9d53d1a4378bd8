import Attest.Proofs.Json.Documents
import Attest.Proofs.Json.Rereading
import Attest.Proofs.Number.Overflow
import Attest.Proofs.Value.Excerpt

/-!
# Infinities in documents

The words for infinities and NaN are refused, but they are not the only way to an infinity: a
literal beyond the range is rounded to one. So a document may hold an infinity, while NaN never gets
into one. It shows when the document is written, since what is written then is the word that is
refused.

## Main definitions

* `Json.Stands` — a number that stands in a text as a literal with a fraction or an exponent
* `Document.MadeFrom` — a document and the text that it was made from

## Main results

* `Document.numbers_of_text` — the numbers of a document, and whether its text is accepted again
* `Document.infinity_in_text` — a text that is accepted, and is refused once it was written
-/

namespace Attest

namespace Json

/-- The number is the rounding of a numeral that stands in the text. It is infinite iff the numeral
reaches the bound. -/
def Stands (text : List Char) (x : Double) : Prop :=
  ∃ literal negative digits power, literal <:+: text ∧ Numeral literal negative digits power ∧
    x = .ofDecimal negative digits power ∧
    ((∃ t, x = .infinite t) ↔ (Double.overflowBound : ℚ) ≤ digits * 10 ^ power)

theorem Stands.ne_nan {text : List Char} {x : Double} (h : Stands text x) : x ≠ .nan := by
  obtain ⟨_, negative, digits, power, -, -, rfl, -⟩ := h
  exact Double.ofDecimal_ne_nan negative digits power

/-- **The numbers of what is read** stand in the text. -/
theorem read_stands {text : List Char} {v : Value} (h : read text = .ok v) :
    v.Floats (Stands text) := by
  refine read_induct h (fun _ hfloats => hfloats.mono fun _ => False.elim) ?_ ?_ ?_
  · intro inner rest v hinner hnumber
    obtain ⟨literal, negative, digits, power, rfl, hnumeral, ⟨n, rfl, -⟩ | rfl⟩ :=
      readNumber?_eq_ok hnumber
    · trivial
    · exact ⟨literal, negative, digits, power,
        (List.prefix_append literal rest).isInfix.trans hinner.isInfix, hnumeral, rfl,
        Double.ofDecimal_infinite_iff⟩
  · exact fun hvs => Value.floatsItems_iff.mpr hvs
  · exact fun hes => (Value.floatsEntries_iff.mpr fun e he => (hes e he).2).ofPairs

end Json

namespace Document

/-- The document was made from the text, or from bytes that are decoded to it. -/
def MadeFrom (d : Document) (text : List Char) : Prop :=
  d = ofText (String.ofList text) ∨
    ∃ data, Encoding.decodeDocument data = .ok text ∧ d = ofBytes data

theorem MadeFrom.eq_ofChars {d : Document} {text : List Char} (h : d.MadeFrom text) :
    d = ofChars text := by
  rcases h with rfl | ⟨data, hdata, rfl⟩
  · rw [ofText, String.toList_ofList]
  · rw [ofBytes, hdata]

/-- A document that is valid was made from some text. -/
theorem FromText.exists_madeFrom {d : Document} (h : d.FromText) (hvalid : d.isValid = true) :
    ∃ text, d.MadeFrom text := by
  rcases h with ⟨text, rfl⟩ | ⟨data, rfl⟩
  · exact ⟨text.toList, .inl (by rw [String.ofList_toList])⟩
  · cases hdata : Encoding.decodeDocument data with
    | ok text => exact ⟨text, .inr ⟨data, hdata, rfl⟩⟩
    | error e =>
      rw [ofBytes, hdata] at hvalid
      cases hvalid

theorem MadeFrom.stands {d : Document} {text : List Char} (h : d.MadeFrom text) :
    d.root.Floats (Json.Stands text) := by
  rw [h.eq_ofChars, ofChars]
  cases hread : Json.read text with
  | error e => trivial
  | ok root => exact Value.floats_asDocument_iff.mpr (Json.read_stands hread)

/-- **The numbers of a document that was accepted.** Its integers are within the limit, and each of
its floating numbers is the rounding of a literal of the text: never NaN, but infinite if the
literal reaches the bound. Its root has a text, which is accepted again iff none of them is
infinite, and refused for the word of an infinity otherwise. -/
theorem numbers_of_text {d : Document} (hd : d.FromText) (hvalid : d.isValid = true) :
    d.root.Shown ∧ (∃ text, d.MadeFrom text ∧ d.root.Floats (Json.Stands text)) ∧
      d.root.Floats (· ≠ .nan) ∧
      ∃ whole, d.root.rendered = .ok whole ∧ ∀ limit : Int, whole.length ≤ limit →
        ∃ shown, d.root.excerpt limit = .ok shown ∧
          ((ofText shown).isValid = true ↔ d.root.Floats Double.IsFinite) ∧
          ((ofText shown).isValid = false → ∃ t,
            (ofText shown).problem
              = some ("Unsupported JSON constant: " ++ (Double.infinite t).render .json)) := by
  obtain ⟨text, htext⟩ := hd.exists_madeFrom hvalid
  have hnumbers := htext.stands
  have hnan : d.root.Floats (· ≠ .nan) := hnumbers.mono fun _ => Json.Stands.ne_nan
  obtain ⟨whole, hwhole, hok, herror⟩ := ofText_whole hd.shown
  refine ⟨hd.shown, ⟨text, htext, hnumbers⟩, hnan, whole, hwhole,
    fun limit hlimit => ⟨whole, ?_, ?_⟩⟩
  · rw [Value.excerpt_of_rendered hwhole, cutText_of_le hlimit]
  · rw [← Json.isOk_reread_iff]
    cases hread : Json.reread d.root with
    | ok w =>
      rw [hok hread]
      exact ⟨iff_of_true rfl rfl, nofun⟩
    | error e =>
      rw [herror hread]
      refine ⟨iff_of_false Bool.false_ne_true Bool.false_ne_true, fun _ => ?_⟩
      obtain ⟨x, hx, hfinite, rfl⟩ := Json.reread_eq_error hnan hread
      cases x with
      | nan => exact absurd rfl hx
      | finite => exact absurd trivial hfinite
      | infinite t => exact ⟨t, rfl⟩

/-- A document with a literal beyond the range, one within it and an integer. -/
theorem numbers_of_text_of_array : ∃ d, d = ofText "[1e400,-2.5,3]" ∧ d.FromText ∧
    d.isValid = true ∧ d.root.excerpt 100 = .ok "[Infinity,-2.5,3]" ∧
    d.root.Floats (· ≠ .nan) ∧ ∃ text, d.MadeFrom text ∧ d.root.Floats (Json.Stands text) := by
  have hvalid : (ofText "[1e400,-2.5,3]").isValid = true := by decide +kernel
  have hexcerpt : (ofText "[1e400,-2.5,3]").root.excerpt 100 = .ok "[Infinity,-2.5,3]" := by
    decide +kernel
  -- the document is not to be computed again below
  generalize hd : ofText "[1e400,-2.5,3]" = d at hvalid hexcerpt
  have htext : d.FromText := .inl ⟨"[1e400,-2.5,3]", hd.symm⟩
  obtain ⟨-, hstands, hnan, -⟩ := numbers_of_text htext hvalid
  exact ⟨d, rfl, htext, hvalid, hexcerpt, hnan, hstands⟩

theorem root_of_large : (ofText "1e400").root = .float (.infinite false) := by
  have hread : Json.read "1e400".toList = .ok (.float (.ofDecimal false 1 400)) := rfl
  have hinfinite : Double.ofDecimal false 1 400 = .infinite false := by decide +kernel
  rw [ofText, ofChars, hread, hinfinite]
  rfl

/-- **A text that is accepted and holds an infinity.** Its root is refused once it was written. -/
theorem infinity_in_text :
    (ofText "1e400").isValid = true ∧ ¬ (ofText "1e400").root.Floats Double.IsFinite ∧
      (ofText "1e400").root.excerpt 100 = .ok "Infinity" ∧
      (ofText "Infinity").problem = some "Unsupported JSON constant: Infinity" := by
  refine ⟨by decide +kernel, ?_, by decide +kernel, by decide +kernel⟩
  rw [root_of_large]
  exact id

end Document

end Attest

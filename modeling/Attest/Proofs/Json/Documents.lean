import Attest.Proofs.Json.Reading

/-!
# Documents have a text

The reader refuses integers with too many digits, so every value that it gives can be shown, and
so can every part of a document made from a text.

## Main definitions

* `Document.FromText` — documents made from texts

## Main results

* `Json.read_shown` — what the reader gives can be shown
* `Document.FromText.shown` — so can the root of a document
-/

namespace Attest

namespace Json

/-- **What the reader gives can be shown.** -/
theorem read_shown {text : List Char} {v : Value} (h : read text = .ok v) : v.Shown := by
  refine read_induct h (fun hplain _ => hplain.mono fun _ => False.elim) ?_ ?_ ?_
  · intro text rest v _ hnumber
    obtain ⟨_, _, _, _, -, -, ⟨n, rfl, hn⟩ | rfl⟩ := readNumber?_eq_ok hnumber
    · exact hn
    · trivial
  · exact fun hvs => Value.plainItems_iff.mpr hvs
  · exact fun hes => (Value.plainEntries_iff.mpr hes).ofPairs

end Json

namespace Document

/-- A document made from a text, or from the bytes of one. -/
def FromText (d : Document) : Prop := (∃ text, d = ofText text) ∨ ∃ data, d = ofBytes data

theorem ofChars_shown (text : List Char) : (ofChars text).root.Shown := by
  unfold ofChars
  cases hr : Json.read text with
  | error e => trivial
  | ok root => exact Value.Plain.numbered (Json.read_shown hr)

/-- **The root of a document made from a text can be shown.** -/
theorem FromText.shown {d : Document} (h : d.FromText) : d.root.Shown := by
  rcases h with ⟨text, rfl⟩ | ⟨data, rfl⟩
  · exact ofChars_shown text.toList
  · unfold ofBytes
    split
    · exact ofChars_shown _
    · trivial

end Document

end Attest

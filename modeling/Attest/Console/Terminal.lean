import Attest.Console.Markup
import Attest.Console.Table
import Attest.Json.Writer
import Attest.Text.Encoding

/-!
# Terminals

A terminal is a console without colours that takes text in UTF-8. Half pairs of surrogates cannot be
sent to it.

## Main definitions

* `textLines` — the lines of a text
* `Terminal.console` — a terminal as a console
-/

namespace Attest

/-- The lines in which a text is shown. -/
def textLines (cs : List Char) : List String := (consoleLines cs).map String.ofList

/-- The lines of a text that is sent in UTF-8, all or none. -/
def sent (text : String) (lines : List String) : Except Fault (List String) :=
  match Encoding.encodeText text with
  | .ok _ => .ok lines
  | .error e => .error (.unencodable e.message)

/-- The lines in which a text is sent. -/
def sentText (cs : List Char) : Except Fault (List String) :=
  sent (String.ofList cs) (textLines cs)

namespace Table

/-- Every text of a table, made anew. -/
def mapTexts (f : String → Except Fault String) (t : Table) : Except Fault Table := do
  return {
    title := ← f t.title
    heads := ← t.heads.mapM f
    rows := ← t.rows.mapM fun row => row.mapM f }

end Table

namespace Terminal

/-- A text without its tags. -/
def plain (t : Terminal) (text : String) : Except Fault String :=
  (Markup.plainText t text.toList).map String.ofList

/-- A terminal as a console. -/
def console (t : Terminal) : Console where
  markup text := do sentText (← Markup.plainText t text.toList)
  text text := sentText (t.replaceEmoji text.toList)
  json data := do sentText (← Json.write (.report (some 2)) data).toList
  table table := do
    let shown ← table.mapTexts t.plain
    sent (String.join shown.texts) shown.lines

end Terminal

end Attest

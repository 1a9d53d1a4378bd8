import Attest.Json.Document
import Attest.Proofs.Json.Layout
import Attest.Proofs.Value.Floats

/-!
# Values that were written

The text of a JSON value, in any style that keeps the order of keys, is read again, and what comes of
it can be told from the value: the identities of its nodes are lost, and a finite number becomes the
one that its digits are read as. A value with an infinity or NaN in it is refused, because the words
for these are not JSON.

## Main definitions

* `Json.reread` — what is read from the text of a value
* `Json.ReadsBack` — the reader gives that, whatever comes after the text

## Main results

* `Json.readsBack` — every JSON value is read back
* `Json.isOk_reread_iff` — it is accepted iff all of its numbers are finite
* `Document.ofText_whole` — the document that is made from the whole text of a value
-/

namespace Attest

namespace Json

/-! ### What is read -/

/-- The number that the text of a finite number is read as. -/
def rereadNumber (x : Double) : Double :=
  match readNumber? (x.render .json).toList with
  | some (.ok (.float y, _)) => y
  | _ => x

mutual

/-- What is read from the text of a value. -/
def reread : Value → Except ReadError Value
  | .float (.finite negative mantissa exponent) =>
    .ok (.float (rereadNumber (.finite negative mantissa exponent)))
  | .float x => .error (.constant (x.render .json))
  | .array _ _ items => (rereadItems items).map .list
  | .object _ _ entries => (rereadEntries entries).map fun es => .dict (Value.ofPairs es)
  | v => .ok v

def rereadItems : List Value → Except ReadError (List Value)
  | [] => .ok []
  | v :: rest => do return (← reread v) :: (← rereadItems rest)

def rereadEntries : Entries → Except ReadError Entries
  | [] => .ok []
  | (k, v) :: rest => do return (k, ← reread v) :: (← rereadEntries rest)

end

theorem rereadItems_cons (v : Value) (items : List Value) :
    rereadItems (v :: items) = (reread v).bind fun w => (rereadItems items).map (w :: ·) := by
  rw [rereadItems]
  cases reread v with
  | error e => rfl
  | ok w => cases rereadItems items <;> rfl

theorem rereadEntries_cons (k v : Value) (entries : Entries) :
    rereadEntries ((k, v) :: entries)
      = (reread v).bind fun w => (rereadEntries entries).map ((k, w) :: ·) := by
  rw [rereadEntries]
  cases reread v with
  | error e => rfl
  | ok w => cases rereadEntries entries <;> rfl

theorem rereadItems_eq (items : List Value) : rereadItems items = items.mapM reread := by
  induction items with
  | nil => rfl
  | cons v items ih => rw [rereadItems_cons, ih, mapM_cons_bind]

theorem rereadEntries_eq (entries : Entries) :
    rereadEntries entries = entriesAs reread entries := by
  induction entries with
  | nil => rfl
  | cons e entries ih => rw [rereadEntries_cons, ih, entriesAs_cons]

/-! ### Values -/

/-- The text of a value is read as its rereading, whatever comes after it. -/
def ReadsBack (style : Style) (v : Value) : Prop := ReadsAs style v (reread v)

section Written

variable {style : Style} {comma colon : List Char} {p : Int → Prop}

theorem readsBack_finite (negative : Bool) (mantissa : Nat) (exponent : Int) :
    ReadsBack style (.float (.finite negative mantissa exponent)) := by
  intro depth fuel text rest h _ hrest
  obtain rfl := Except.ok.inj h
  obtain ⟨x, hx⟩ := readNumber?_render negative mantissa exponent
  have hreread : rereadNumber (.finite negative mantissa exponent) = x := by
    have hnil := hx ends_nil
    rw [List.append_nil] at hnil
    rw [rereadNumber, hnil]
  have hread := hx hrest
  obtain ⟨_, htext, ⟨hwhole, -, -, -⟩⟩ := Double.render_spells negative mantissa exponent
  rw [htext, List.append_assoc, List.append_assoc] at hread ⊢
  rw [reread, hreread]
  exact readValue_number hwhole hread

theorem readsBack_float : ∀ x : Double, ReadsBack style (.float x)
  | .nan => fun _ _ _ _ h _ _ => by
    cases h
    rfl
  | .infinite negative => fun _ _ _ _ h _ _ => by
    cases negative <;> cases h <;> rfl
  | .finite negative mantissa exponent => readsBack_finite negative mantissa exponent

theorem readsBack_list (hs : style.Spaced comma colon) {node : NodeId} {items : List Value}
    (hplain : Value.PlainItems p items) (hback : ∀ v ∈ items, ReadsBack style v) :
    ReadsBack style (.array node .list items) := by
  have h : ReadsAs style (.array node .list items) ((items.mapM reread).map .list) :=
    readsAs_list hs hplain hback
  rwa [← rereadItems_eq] at h

theorem readsBack_dict (hs : style.Spaced comma colon) (hkeys : style.sortKeys = false)
    {node : NodeId} {entries : Entries} (hplain : Value.PlainEntries p entries)
    (hback : ∀ e ∈ entries, ReadsBack style e.2) :
    ReadsBack style (.object node .plain entries) := by
  have hordered : style.ordered entries = .ok entries := by
    rw [Style.ordered, hkeys]
    rfl
  have h : ReadsAs style (.object node .plain entries)
      ((entriesAs reread entries).map fun es => .dict (Value.ofPairs es)) :=
    readsAs_dict hs hordered hplain hback
  rwa [← rereadEntries_eq] at h

mutual

/-- **The text of a JSON value is read as its rereading**, whatever comes after it. -/
theorem readsBack (hs : style.Spaced comma colon) (hkeys : style.sortKeys = false) :
    ∀ {v : Value}, v.Plain p → ReadsBack style v
  | .null, _ => readsAs_null
  | .bool b, _ => readsAs_bool b
  | .int n, _ => readsAs_int n
  | .float x, _ => readsBack_float x
  | .str s, _ => readsAs_str s
  | .array _ .list _, h => readsBack_list hs h (readsBack_items hs hkeys h)
  | .object _ .plain _, h => readsBack_dict hs hkeys h (readsBack_entries hs hkeys h)

theorem readsBack_items (hs : style.Spaced comma colon) (hkeys : style.sortKeys = false) :
    ∀ {items : List Value}, Value.PlainItems p items → ∀ v ∈ items, ReadsBack style v
  | [], _ => nofun
  | _ :: _, h =>
    List.forall_mem_cons.mpr ⟨readsBack hs hkeys h.1, readsBack_items hs hkeys h.2⟩

theorem readsBack_entries (hs : style.Spaced comma colon) (hkeys : style.sortKeys = false) :
    ∀ {entries : Entries}, Value.PlainEntries p entries → ∀ e ∈ entries, ReadsBack style e.2
  | [], _ => nofun
  | (_, _) :: _, h =>
    List.forall_mem_cons.mpr ⟨readsBack hs hkeys h.2.1, readsBack_entries hs hkeys h.2.2⟩

end

/-- **The text of a JSON value as a whole text.** -/
theorem read_written (hs : style.Spaced comma colon) (hkeys : style.sortKeys = false) {v : Value}
    {text : String} (hv : v.Plain p) (h : write style v = .ok text) : read text.toList = reread v :=
  ReadsAs.read (readsBack hs hkeys hv) hv h

end Written

/-! ### Whether a value is read -/

section

variable {ε α β γ : Type}

theorem isOk_map (g : α → β) (x : Except ε α) : (x.map g).isOk = x.isOk := by cases x <;> rfl

theorem isOk_both (g : α → β → γ) (x : Except ε α) (y : Except ε β) :
    (x.bind fun a => y.map (g a)).isOk = (x.isOk && y.isOk) := by
  cases x with
  | error e => rfl
  | ok a => cases y <;> rfl

theorem map_eq_error {g : α → β} {x : Except ε α} {e : ε} (h : x.map g = .error e) :
    x = .error e := by
  cases x with
  | error e => exact congrArg Except.error (Except.error.inj h)
  | ok a => cases h

theorem both_eq_error {g : α → β → γ} {x : Except ε α} {y : Except ε β} {e : ε}
    (h : (x.bind fun a => y.map (g a)) = .error e) : x = .error e ∨ y = .error e := by
  cases x with
  | error e => exact .inl (congrArg Except.error (Except.error.inj h))
  | ok a => exact .inr (map_eq_error h)

end

mutual

/-- **A value is read from its text** iff all of its numbers are finite. -/
theorem isOk_reread_iff : ∀ v : Value, (reread v).isOk = true ↔ v.Floats Double.IsFinite
  | .float (.finite ..) => iff_of_true rfl trivial
  | .float (.infinite _) | .float .nan => iff_of_false Bool.false_ne_true id
  | .array _ _ items => by
    rw [reread, isOk_map]
    exact isOk_rereadItems_iff items
  | .object _ _ entries => by
    rw [reread, isOk_map]
    exact isOk_rereadEntries_iff entries
  | .null | .bool _ | .int _ | .str _ | .set _ | .bytes _ | .date _ | .timestamp _
  | .pattern .. | .missing => iff_of_true rfl trivial

theorem isOk_rereadItems_iff : ∀ items : List Value,
    (rereadItems items).isOk = true ↔ Value.FloatsItems Double.IsFinite items
  | [] => iff_of_true rfl trivial
  | v :: rest => by
    rw [rereadItems_cons, isOk_both, Bool.and_eq_true]
    exact and_congr (isOk_reread_iff v) (isOk_rereadItems_iff rest)

theorem isOk_rereadEntries_iff : ∀ entries : Entries,
    (rereadEntries entries).isOk = true ↔ Value.FloatsEntries Double.IsFinite entries
  | [] => iff_of_true rfl trivial
  | (k, v) :: rest => by
    rw [rereadEntries_cons, isOk_both, Bool.and_eq_true]
    exact and_congr (isOk_reread_iff v) (isOk_rereadEntries_iff rest)

end

section

variable {p : Double → Prop} {e : ReadError}

mutual

/-- What keeps a value from being read is the word for one of its numbers. -/
theorem reread_eq_error : ∀ {v : Value}, v.Floats p → reread v = .error e →
    ∃ x, p x ∧ ¬ x.IsFinite ∧ e = .constant (x.render .json)
  | .float (.infinite _), hp, h => ⟨_, hp, id, (Except.error.inj h).symm⟩
  | .float .nan, hp, h => ⟨_, hp, id, (Except.error.inj h).symm⟩
  | .array _ _ _, hp, h => rereadItems_eq_error hp (map_eq_error h)
  | .object _ _ _, hp, h => rereadEntries_eq_error hp (map_eq_error h)

theorem rereadItems_eq_error : ∀ {items : List Value}, Value.FloatsItems p items →
    rereadItems items = .error e → ∃ x, p x ∧ ¬ x.IsFinite ∧ e = .constant (x.render .json)
  | v :: rest, hp, h => by
    rw [rereadItems_cons] at h
    rcases both_eq_error h with h | h
    · exact reread_eq_error hp.1 h
    · exact rereadItems_eq_error hp.2 h

theorem rereadEntries_eq_error : ∀ {entries : Entries}, Value.FloatsEntries p entries →
    rereadEntries entries = .error e → ∃ x, p x ∧ ¬ x.IsFinite ∧ e = .constant (x.render .json)
  | (k, v) :: rest, hp, h => by
    rw [rereadEntries_cons] at h
    rcases both_eq_error h with h | h
    · exact reread_eq_error hp.1 h
    · exact rereadEntries_eq_error hp.2 h

end

end

end Json

/-! ### Documents -/

/-- **The document that is made from the whole text of a value.** -/
theorem Document.ofText_whole {v : Value} (h : v.Shown) : ∃ whole, v.rendered = .ok whole ∧
    (∀ {w}, Json.reread v = .ok w → ofText whole = ofValue w.asDocument) ∧
    ∀ {e}, Json.reread v = .error e →
      ofText whole = { root := .null, problem := some (e.message whole.toList) } := by
  obtain ⟨whole, hwhole, hrendered⟩ := h.exists_written
  have hread := Json.read_written Json.spaced_compact rfl h hwhole
  refine ⟨whole, hrendered, fun hw => ?_, fun he => ?_⟩
  · rw [ofText, ofChars, hread, hw]
    rfl
  · rw [ofText, ofChars, hread, he]

end Attest

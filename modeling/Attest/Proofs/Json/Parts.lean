import Attest.Proofs.Json.Layout
import Attest.Proofs.Value.Part
import Attest.Proofs.Text.Sending

/-!
# Parts of written values

What is written of a part of a value is in what is written of the value. So a text can be sent only
if every string in the value can, at whatever place, unless everything beyond ASCII is escaped.

## Main results

* `Json.exists_infix_of_part` — the text of a part is in the text of the whole
* `Json.unbroken_of_part` — if the whole text can be sent, so can every string
-/

namespace Attest

namespace Json

variable {style : Style} {depth : Nat} {text part : String} {texts : List String} {v root : Value}

/-! ### Texts in texts -/

theorem infix_enclose {opening closing : String} (h : part ∈ texts) :
    part.toList <:+: (style.enclose depth opening closing texts).toList := by
  have hsome : texts.isEmpty = false := List.isEmpty_eq_false_iff.mpr (List.ne_nil_of_mem h)
  have hjoined : part.toList <:+:
      ((style.itemSeparator ++ style.breakAt (depth + 1)).intercalate texts).toList :=
    infix_joined h
  simp only [Style.enclose, hsome, Bool.false_eq_true, if_false, String.toList_append]
  refine hjoined.trans ⟨opening.toList ++ (style.breakAt (depth + 1)).toList,
    (style.breakAt depth).toList ++ closing.toList, ?_⟩
  simp only [List.append_assoc]

theorem exists_of_mem_items {items : List Value} (h : writeItems style depth items = .ok texts)
    (hv : v ∈ items) : ∃ part ∈ texts, writeAt style depth v = .ok part := by
  induction items generalizing texts with
  | nil => cases hv
  | cons first rest ih =>
    obtain ⟨t, ts, rfl, ht, hts⟩ := writeItems_cons h
    rcases List.mem_cons.mp hv with rfl | hv
    · exact ⟨t, List.mem_cons_self .., ht⟩
    · obtain ⟨part, hpart, hwritten⟩ := ih hts hv
      exact ⟨part, List.mem_cons_of_mem _ hpart, hwritten⟩

theorem exists_of_mem_entries {entries : Entries} {name : String}
    (hkeys : ∀ e ∈ entries, ∃ s, e.1 = .str s)
    (h : (writeEntries style depth entries).mapM (entryText style) = .ok texts)
    (hv : (.str name, v) ∈ entries) :
    ∃ part, memberText style name part ∈ texts ∧ writeAt style depth v = .ok part := by
  induction entries generalizing texts with
  | nil => cases hv
  | cons e rest ih =>
    obtain ⟨⟨s, hs⟩, hrest⟩ := List.forall_mem_cons.mp hkeys
    obtain ⟨key, w⟩ := e
    obtain rfl : key = .str s := hs
    obtain ⟨t, ts, rfl, ht, hts⟩ := writeEntries_cons h
    rcases List.mem_cons.mp hv with he | hv
    · cases he
      exact ⟨t, List.mem_cons_self .., ht⟩
    · obtain ⟨part, hpart, hwritten⟩ := ih hrest hts hv
      exact ⟨part, List.mem_cons_of_mem _ hpart, hwritten⟩

/-- **The text of a part is in the text of the whole**, if keys stay where they are. -/
theorem exists_infix_of_part (hsort : style.sortKeys = false) (hroot : root.IsJson)
    (h : root.Part v) (htext : writeAt style depth root = .ok text) :
    ∃ depth part, writeAt style depth v = .ok part ∧ part.toList <:+: text.toList := by
  induction h with
  | root => exact ⟨depth, text, htext, List.infix_refl _⟩
  | item _ hv ih =>
    obtain ⟨d, whole, hwhole, hinfix⟩ := ih
    obtain ⟨texts, htexts, rfl⟩ := writeAt_list hwhole
    obtain ⟨part, hpart, hwritten⟩ := exists_of_mem_items htexts (List.mem_of_getElem? hv)
    exact ⟨_, part, hwritten, (infix_enclose hpart).trans hinfix⟩
  | @entry node form entries key v hobject hv ih =>
    obtain ⟨d, whole, hwhole, hinfix⟩ := ih
    have hplain : (Value.object node form entries).IsJson :=
      (Value.hereditary_plain _).part hobject hroot
    have hkeys := fun e he => (Value.plainEntries_iff.mp hplain.entries e he).1
    cases form with
    | view => exact hplain.elim
    | plain =>
      obtain ⟨es, texts, hes, htexts, rfl⟩ := writeAt_dict hwhole
      rw [Style.ordered, if_neg (by simp [hsort])] at hes
      cases hes
      obtain ⟨name, rfl⟩ := hkeys _ hv
      obtain ⟨part, hpart, hwritten⟩ := exists_of_mem_entries hkeys htexts hv
      have hmember : part.toList <:+: (memberText style name part).toList := by
        rw [memberText, String.toList_append]
        exact (List.suffix_append _ _).isInfix
      exact ⟨_, part, hwritten, (hmember.trans (infix_enclose hpart)).trans hinfix⟩

/-- Half a pair of surrogates is not escaped by itself. -/
theorem escapeChar_of_isLone {c : Char} (h : isLone c = true) : escapeChar false c = [c] := by
  have hlarge : firstStandIn ≤ c.toNat := by
    by_contra hsmall
    cases h.symm.trans (isLone_of_lt (Nat.not_le.mp hsmall))
  have hne (d : Char) (hd : d.toNat < firstStandIn) : c ≠ d := by
    rintro rfl
    exact absurd hlarge (Nat.not_le.mpr hd)
  have hcontrol : ¬ c.toNat < 0x20 := fun hlt => absurd (hlarge.trans_lt hlt) (by decide)
  rw [escapeChar, if_neg (hne _ (by decide)), if_neg (hne _ (by decide)),
    if_neg (hne _ (by decide)), if_neg (hne _ (by decide)), if_neg (hne _ (by decide)),
    if_neg (hne _ (by decide)), if_neg (hne _ (by decide)), if_neg hcontrol, Bool.false_and,
    if_neg Bool.false_ne_true]

/-- **Half a pair of surrogates** in a string at any place is in the whole text. -/
theorem unbroken_of_part {s : String} (hascii : style.ascii = false)
    (hsort : style.sortKeys = false) (hroot : root.IsJson) (h : root.Part (.str s))
    (htext : writeAt style depth root = .ok text) (hunbroken : Unbroken text) : Unbroken s := by
  obtain ⟨d, part, hpart, hinfix⟩ := exists_infix_of_part hsort hroot h htext
  obtain rfl : quoted style.ascii s = part := Except.ok.inj hpart
  have hquoted : Unbroken (quoted style.ascii s) := hunbroken.mono hinfix
  intro c hc
  by_contra hlone
  have hlone : isLone c = true := by simpa using hlone
  have hmem : c ∈ (quoted style.ascii s).toList := by
    rw [hascii, toList_quoted]
    refine List.mem_cons_of_mem _ (List.mem_append_left _ (List.mem_flatMap.mpr ⟨c, hc, ?_⟩))
    rw [escapeChar_of_isLone hlone]
    exact List.mem_singleton.mpr rfl
  cases hlone.symm.trans (hquoted c hmem)

end Json

end Attest

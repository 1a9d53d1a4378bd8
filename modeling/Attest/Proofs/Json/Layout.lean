import Attest.Proofs.Json.Scalars
import Attest.Proofs.Value.Plain
import Attest.Proofs.Value.Sorting

/-!
# Values in a layout

A value that was written is read again, with whatever blanks around its parts, whatever escapes and
whatever order of keys. The reader is followed along the value and not along the text, since what it
makes of the text of a part does not depend on what comes after it. The texts of elements and
members are taken one by one, for any values of which it is known already what their texts are read
as; for a style, the induction on values is then short.

## Main definitions

* `Json.Style.Spaced` — a style that separates by commas, colons and blanks
* `Json.Style.ordered` — the entries of an object as a style orders them
* `Json.ReadsAs` — what the text of a value is read as, whatever comes after it

## Main results

* `Json.readsAs_int`, `readsAs_str` — atoms
* `Json.readsAs_list`, `readsAs_dict` — lists and objects, from their elements and members
* `Json.ReadsAs.read` — a whole text
-/

namespace Attest

namespace Json

/-! ### Styles -/

/-- There are only blanks. -/
def Blank (cs : List Char) : Prop := ∀ c ∈ cs, isBlank c = true

/-- The style separates by commas and colons, with these blanks behind them. -/
structure Style.Spaced (style : Style) (comma colon : List Char) : Prop where
  comma_eq : style.itemSeparator.toList = ',' :: comma
  colon_eq : style.keySeparator.toList = ':' :: colon
  blank_comma : Blank comma
  blank_colon : Blank colon

theorem spaced_compact : Style.compact.Spaced [] [] where
  comma_eq := rfl
  colon_eq := rfl
  blank_comma := List.forall_mem_nil _
  blank_colon := List.forall_mem_nil _

theorem spaced_canonical : Style.canonical.Spaced [' '] [' '] where
  comma_eq := rfl
  colon_eq := rfl
  blank_comma := List.forall_mem_singleton.mpr rfl
  blank_colon := List.forall_mem_singleton.mpr rfl

theorem spaced_report (width : Nat) : (Style.report (some width)).Spaced [] [' '] where
  comma_eq := by simp [Style.report]
  colon_eq := by simp [Style.report]
  blank_comma := List.forall_mem_nil _
  blank_colon := List.forall_mem_singleton.mpr rfl

/-- Lines are broken by blanks. -/
theorem blank_breakAt (style : Style) (depth : Nat) : Blank (style.breakAt depth).toList := by
  intro c hc
  unfold Style.breakAt at hc
  split at hc
  · simp only [String.toList_append, String.toList_ofList, List.mem_append, List.mem_replicate] at hc
    rcases hc with hc | ⟨-, rfl⟩
    · rw [List.mem_singleton.mp hc]
      rfl
    · rfl
  · cases hc

/-- What stands between two elements at a depth. -/
def Style.joint (style : Style) (depth : Nat) : String := style.itemSeparator ++ style.breakAt depth

/-- The entries of an object in the order in which they are written. -/
def Style.ordered (style : Style) (entries : Entries) : Except Fault Entries :=
  if style.sortKeys then Value.sortEntries entries else .ok entries

/-! ### Beginnings -/

/-- A text that does not begin with a blank, a closing bracket or a byte order mark. -/
def Begins (text : List Char) : Prop :=
  ∃ c cs, text = c :: cs ∧ isBlank c = false ∧ c ≠ ']' ∧ c ≠ '\uFEFF'

theorem Begins.append {text : List Char} (h : Begins text) (rest : List Char) :
    Begins (text ++ rest) := by
  obtain ⟨c, cs, rfl, hblank, hc⟩ := h
  exact ⟨c, cs ++ rest, rfl, hblank, hc⟩

theorem Begins.skipBlanks {text : List Char} (h : Begins text) : skipBlanks text = text := by
  obtain ⟨c, cs, rfl, hblank, -⟩ := h
  exact List.dropWhile_cons_of_neg (by simp [hblank])

theorem Begins.length_pos {text : List Char} (h : Begins text) : 0 < text.length := by
  obtain ⟨c, cs, rfl, -⟩ := h
  exact Nat.succ_pos _

theorem Blank.append {cs gap : List Char} (hcs : Blank cs) (hgap : Blank gap) :
    Blank (cs ++ gap) := by
  intro c hc
  rcases List.mem_append.mp hc with hc | hc
  · exact hcs c hc
  · exact hgap c hc

/-- Blanks are skipped. -/
theorem Blank.skip {gap : List Char} (hgap : Blank gap) (text : List Char) :
    skipBlanks (gap ++ text) = skipBlanks text :=
  List.dropWhile_append_of_pos hgap

theorem Blank.skipBlanks {gap text : List Char} (hgap : Blank gap) (h : Begins text) :
    skipBlanks (gap ++ text) = text :=
  (hgap.skip text).trans h.skipBlanks

/-- Blanks before another end are an end. -/
theorem Blank.ends {gap rest : List Char} (hgap : Blank gap) (hrest : Ends rest) :
    Ends (gap ++ rest) := by
  cases gap with
  | nil => exact hrest
  | cons c cs =>
    refine ends_cons ?_ (cs ++ rest)
    have hc := hgap c (List.mem_cons_self ..)
    simp only [isBlank, Bool.or_eq_true, beq_iff_eq] at hc
    rcases hc with ((rfl | rfl) | rfl) | rfl <;> decide

theorem begins_number (negative : Bool) {ds : List Char} (h : Whole ds) (rest : List Char) :
    Begins (minus negative ++ (ds ++ rest)) := by
  obtain ⟨c, cs, rfl, hc⟩ := h.exists_cons
  cases negative with
  | true => exact ⟨'-', _, rfl, rfl, by decide⟩
  | false =>
    refine ⟨c, _, rfl, ?_, ?_, ?_⟩
    · cases hblank : isBlank c with
      | false => rfl
      | true =>
        simp only [isBlank, Bool.or_eq_true, beq_iff_eq] at hblank
        rcases hblank with ((rfl | rfl) | rfl) | rfl <;> cases hc
    all_goals
      rintro rfl
      cases hc

/-! ### Texts that were written -/

section Written

variable {style : Style} {comma colon : List Char} {p : Int → Prop} {depth fuel : Nat}
  {text : String} {rest : List Char}

theorem enclose_nil (depth : Nat) (opening closing : String) :
    style.enclose depth opening closing [] = opening ++ closing := rfl

/-- Texts between brackets: if there are any, they are joined, with blanks before and after them. -/
theorem toList_enclose {opening closing : String} {a b : Char} (hopening : opening.toList = [a])
    (hclosing : closing.toList = [b]) (depth : Nat) (t : String) (ts : List String) :
    (style.enclose depth opening closing (t :: ts)).toList
      = a :: ((style.breakAt (depth + 1)).toList
        ++ (((style.joint (depth + 1)).intercalate (t :: ts)).toList
          ++ ((style.breakAt depth).toList ++ [b]))) := by
  simp [Style.enclose, Style.joint, List.append_assoc, hopening, hclosing]

theorem begins_enclose {opening closing : String} {a b : Char} (hopening : opening.toList = [a])
    (hclosing : closing.toList = [b]) (hblank : isBlank a = false) (ha : a ≠ ']')
    (hmark : a ≠ '\uFEFF') (texts : List String) :
    Begins (style.enclose depth opening closing texts).toList := by
  cases texts with
  | nil => exact ⟨a, [b], by simp [enclose_nil, hopening, hclosing], hblank, ha, hmark⟩
  | cons t ts => exact ⟨a, _, toList_enclose hopening hclosing depth t ts, hblank, ha, hmark⟩

theorem writeAt_list {node : NodeId} {form : ArrayForm} {items : List Value}
    (h : writeAt style depth (.array node form items) = .ok text) :
    ∃ texts, writeItems style (depth + 1) items = .ok texts ∧
      text = style.enclose depth "[" "]" texts := by
  rw [writeAt] at h
  obtain ⟨texts, htexts, h⟩ := bind_eq_ok h
  exact ⟨texts, htexts, (Except.ok.inj h).symm⟩

theorem writeEntries_eq_map (style : Style) (depth : Nat) (entries : Entries) :
    writeEntries style depth entries = entries.map fun e => (e.1, writeAt style depth e.2) := by
  induction entries with
  | nil => rfl
  | cons e entries ih => rw [writeEntries, ih, List.map_cons]

theorem writeAt_dict {node : NodeId} {entries : Entries}
    (h : writeAt style depth (.object node .plain entries) = .ok text) :
    ∃ es texts, style.ordered entries = .ok es ∧
      (writeEntries style (depth + 1) es).mapM (entryText style) = .ok texts ∧
      text = style.enclose depth "\x7b" "\x7d" texts := by
  have hsorted : Value.sortEntries (writeEntries style (depth + 1) entries)
      = (Value.sortEntries entries).map (writeEntries style (depth + 1)) := by
    rw [writeEntries_eq_map, Value.sortEntries_map]
    exact congrArg (Except.map · _) (funext fun es => (writeEntries_eq_map ..).symm)
  have hordered : ∃ es, style.ordered entries = .ok es ∧
      ((writeEntries style (depth + 1) es).mapM (entryText style)).map
        (style.enclose depth "\x7b" "\x7d") = .ok text := by
    rw [writeAt] at h
    unfold Style.ordered
    split at h
    · next hsort =>
      rw [if_pos hsort]
      obtain ⟨written, hwritten, h⟩ := bind_eq_ok h
      obtain ⟨es, hes, rfl⟩ := map_eq_ok (hsorted.symm.trans hwritten)
      exact ⟨es, hes, h⟩
    · next hsort =>
      rw [if_neg hsort]
      exact ⟨entries, rfl, h⟩
  obtain ⟨es, hes, hmap⟩ := hordered
  obtain ⟨texts, htexts, rfl⟩ := map_eq_ok hmap
  exact ⟨es, texts, hes, htexts, rfl⟩

theorem writeItems_cons {v : Value} {items : List Value} {texts : List String}
    (h : writeItems style depth (v :: items) = .ok texts) :
    ∃ t ts, texts = t :: ts ∧ writeAt style depth v = .ok t ∧
      writeItems style depth items = .ok ts := by
  rw [writeItems] at h
  obtain ⟨t, ht, h⟩ := bind_eq_ok h
  obtain ⟨ts, hts, h⟩ := bind_eq_ok h
  exact ⟨t, ts, (Except.ok.inj h).symm, ht, hts⟩

/-- The text of a member. -/
def memberText (style : Style) (name text : String) : String :=
  quoted style.ascii name ++ style.keySeparator ++ text

theorem writeEntries_cons {s : String} {v : Value} {entries : Entries} {texts : List String}
    (h : (writeEntries style depth ((.str s, v) :: entries)).mapM (entryText style)
      = .ok texts) :
    ∃ t ts, texts = memberText style s t :: ts ∧ writeAt style depth v = .ok t ∧
      (writeEntries style depth entries).mapM (entryText style) = .ok ts := by
  rw [writeEntries, List.mapM_cons] at h
  obtain ⟨entry, hentry, h⟩ := bind_eq_ok h
  obtain ⟨ts, hts, h⟩ := bind_eq_ok h
  obtain ⟨key, hkey, hentry⟩ := bind_eq_ok hentry
  obtain ⟨t, ht, hentry⟩ := bind_eq_ok hentry
  obtain rfl : s = key := Except.ok.inj hkey
  obtain rfl := Except.ok.inj hentry
  exact ⟨t, ts, (Except.ok.inj h).symm, ht, hts⟩

theorem intText_eq_ok {n : Int} (h : intText n = .ok text) :
    text = toString n ∧ n.natAbs < digitBound := by
  unfold intText at h
  split at h
  · next hn => exact ⟨(Except.ok.inj h).symm, hn⟩
  · cases h

theorem toList_quoted (ascii : Bool) (s : String) :
    (quoted ascii s).toList = '"' :: (s.toList.flatMap (escapeChar ascii) ++ ['"']) :=
  String.toList_ofList

/-- No text of a value could be taken for the end of a list. -/
theorem begins_written {v : Value} (hv : v.Plain p)
    (h : writeAt style depth v = .ok text) : Begins text.toList := by
  cases v with
  | null =>
    cases h
    exact ⟨'n', _, rfl, rfl, by decide⟩
  | bool b =>
    cases b <;> cases h
    · exact ⟨'f', _, rfl, rfl, by decide⟩
    · exact ⟨'t', _, rfl, rfl, by decide⟩
  | int n =>
    rw [(intText_eq_ok h).1, toList_int, ← List.append_nil (Nat.toDigits _ _)]
    exact begins_number _ (whole_toDigits _) []
  | float x =>
    cases h
    cases x with
    | nan => exact ⟨'N', _, rfl, rfl, by decide⟩
    | infinite negative =>
      cases negative with
      | true => exact ⟨'-', _, rfl, rfl, by decide⟩
      | false => exact ⟨'I', _, rfl, rfl, by decide⟩
    | finite negative mantissa exponent =>
      obtain ⟨_, htext, ⟨hwhole, -, -, -⟩⟩ := Double.render_spells negative mantissa exponent
      rw [htext]
      exact begins_number _ hwhole _
  | str s =>
    cases h
    exact ⟨'"', _, toList_quoted .., rfl, by decide⟩
  | array node form items =>
    obtain ⟨texts, -, rfl⟩ := writeAt_list h
    exact begins_enclose rfl rfl (a := '[') rfl (by decide) (by decide) texts
  | object node form entries =>
    cases form with
    | view => exact hv.elim
    | plain =>
      obtain ⟨es, texts, -, -, rfl⟩ := writeAt_dict h
      exact begins_enclose rfl rfl (a := '\x7b') rfl (by decide) (by decide) texts
  | set | bytes | date | timestamp | pattern | missing => exact hv.elim

/-! ### Reading a part -/

/-- A text that begins like a number is read as one. -/
theorem readValue_number {negative : Bool} {ds t : List Char} (hw : Whole ds) {r : Reading Value}
    (h : readNumber? (minus negative ++ (ds ++ t)) = some r) :
    readValue (fuel + 1) (minus negative ++ (ds ++ t)) = r := by
  obtain ⟨c, cs, rfl, hc⟩ := hw.exists_cons
  rw [List.cons_append] at h ⊢
  generalize cs ++ t = tail at h ⊢
  -- no other beginning has a digit, or a digit after a minus
  cases negative with
  | true =>
    rw [readValue, h, Option.getD_some]
    all_goals
      rintro _ ⟨⟩
      try cases hc
  | false =>
    rw [readValue, h, Option.getD_some]
    all_goals
      rintro _ ⟨⟩
      cases hc

theorem readValue_items {gap text : List Char} (hgap : Blank gap) (h : Begins text) :
    readValue (fuel + 1) ('[' :: (gap ++ text))
      = (readItems fuel text).map fun (vs, r) => (.list vs, r) := by
  have hskip := hgap.skipBlanks h
  obtain ⟨c, cs, rfl, -, hc, -⟩ := h
  rw [readValue, hskip]
  split
  · next he => exact absurd (List.cons.inj he).1 hc
  · rfl

theorem readValue_members {gap : List Char} (hgap : Blank gap) (text : List Char) :
    readValue (fuel + 1) ('\x7b' :: (gap ++ '"' :: text))
      = (readMembers fuel ('"' :: text)).map fun (es, r) => (.dict (Value.ofPairs es), r) := by
  have hskip : skipBlanks (gap ++ '"' :: text) = '"' :: text := hgap.skip ('"' :: text)
  rw [readValue, hskip]
  rfl

section Elements

variable {r : Except ReadError Value} {body more gap pad : List Char}

theorem readItems_last (hpad : Blank pad)
    (h : readValue fuel body = r.map fun v => (v, pad ++ ']' :: rest)) :
    readItems (fuel + 1) body = r.map fun v => ([v], rest) := by
  have hskip : skipBlanks (pad ++ ']' :: rest) = ']' :: rest := hpad.skip (']' :: rest)
  rw [readItems, h]
  cases r with
  | error e => rfl
  | ok v => simp only [Except.map, bind, Except.bind, hskip, pure, Except.pure]

theorem readItems_more (hgap : Blank gap)
    (h : readValue fuel body = r.map fun v => (v, ',' :: (gap ++ more))) (hmore : Begins more) :
    readItems (fuel + 1) body
      = r.bind fun v => (readItems fuel more).map fun (vs, rest) => (v :: vs, rest) := by
  rw [readItems, h]
  cases r with
  | error e => rfl
  | ok v =>
    change (readItems fuel (skipBlanks (gap ++ more)) >>= fun (vs, rest) => pure (v :: vs, rest))
      = _
    rw [hgap.skipBlanks hmore, bind_pure_comp]
    rfl

theorem readMembers_last (hcolon : Blank colon) (hpad : Blank pad) {s : String}
    (hbody : Begins body) (h : readValue fuel body = r.map fun v => (v, pad ++ '\x7d' :: rest)) :
    readMembers (fuel + 1) ((quoted style.ascii s).toList ++ ':' :: (colon ++ body))
      = r.map fun v => ([(.str s, v)], rest) := by
  have hskip : skipBlanks (pad ++ '\x7d' :: rest) = '\x7d' :: rest := hpad.skip ('\x7d' :: rest)
  rw [toList_quoted, List.cons_append, List.append_assoc, List.singleton_append, readMembers,
    readString_escaped]
  change (readValue fuel (skipBlanks (colon ++ body))).bind _ = _
  rw [hcolon.skipBlanks hbody, h, String.ofList_toList]
  cases r with
  | error e => rfl
  | ok v => simp only [Except.map, Except.bind, hskip, pure, Except.pure]

theorem readMembers_more (hcolon : Blank colon) (hgap : Blank gap) {s : String}
    (hbody : Begins body) (h : readValue fuel body = r.map fun v => (v, ',' :: (gap ++ more)))
    (hmore : Begins more) :
    readMembers (fuel + 1) ((quoted style.ascii s).toList ++ ':' :: (colon ++ body))
      = r.bind fun v =>
        (readMembers fuel more).map fun (es, rest) => ((.str s, v) :: es, rest) := by
  rw [toList_quoted, List.cons_append, List.append_assoc, List.singleton_append, readMembers,
    readString_escaped]
  change (readValue fuel (skipBlanks (colon ++ body))).bind _ = _
  rw [hcolon.skipBlanks hbody, h, String.ofList_toList]
  cases r with
  | error e => rfl
  | ok v =>
    change (readMembers fuel (skipBlanks (gap ++ more))
      >>= fun (es, rest) => pure ((.str s, v) :: es, rest)) = _
    rw [hgap.skipBlanks hmore, bind_pure_comp]
    rfl

end Elements

/-! ### Texts of elements -/

theorem ends_close (rest : List Char) : Ends (']' :: rest) := ends_cons (by decide) rest

theorem ends_closeBrace (rest : List Char) : Ends ('\x7d' :: rest) := ends_cons (by decide) rest

theorem ends_comma (rest : List Char) : Ends (',' :: rest) := ends_cons (by decide) rest

theorem toList_joined (hs : style.Spaced comma colon) (depth : Nat) (t u : String)
    (ts : List String) :
    ((style.joint depth).intercalate (t :: u :: ts)).toList
      = t.toList ++ ',' :: ((comma ++ (style.breakAt depth).toList)
        ++ ((style.joint depth).intercalate (u :: ts)).toList) := by
  rw [String.intercalate_cons_cons, String.toList_append, String.toList_append, Style.joint,
    String.toList_append, hs.comma_eq, List.append_assoc]
  rfl

/-- Behind a comma there are blanks. -/
theorem Style.Spaced.blank_joint (hs : style.Spaced comma colon) (depth : Nat) :
    Blank (comma ++ (style.breakAt depth).toList) :=
  hs.blank_comma.append (blank_breakAt style depth)

theorem Begins.joined (hs : style.Spaced comma colon) (depth : Nat) {t : String}
    (h : Begins t.toList) (ts : List String) :
    Begins ((style.joint depth).intercalate (t :: ts)).toList := by
  cases ts with
  | nil => rwa [String.intercalate_singleton]
  | cons u ts =>
    rw [toList_joined hs]
    exact h.append _

theorem begins_items (hs : style.Spaced comma colon) {v : Value} {items : List Value}
    {texts : List String} (hv : v.Plain p)
    (h : writeItems style depth (v :: items) = .ok texts) :
    Begins ((style.joint depth).intercalate texts).toList := by
  obtain ⟨t, ts, rfl, ht, -⟩ := writeItems_cons h
  exact (begins_written hv ht).joined hs depth ts

theorem toList_member (hs : style.Spaced comma colon) (s t : String) :
    (memberText style s t).toList
      = (quoted style.ascii s).toList ++ ':' :: (colon ++ t.toList) := by
  rw [memberText, String.toList_append, String.toList_append, List.append_assoc, hs.colon_eq]
  rfl

theorem begins_member (hs : style.Spaced comma colon) (s t : String) :
    Begins (memberText style s t).toList := by
  rw [toList_member hs, toList_quoted]
  exact ⟨'"', _, rfl, rfl, by decide⟩

theorem joined_entries (hs : style.Spaced comma colon) {s : String} {v : Value} {entries : Entries}
    {texts : List String}
    (h : (writeEntries style depth ((.str s, v) :: entries)).mapM (entryText style) = .ok texts) :
    ∃ after, ((style.joint depth).intercalate texts).toList = '"' :: after := by
  obtain ⟨t, ts, rfl, -, -⟩ := writeEntries_cons h
  cases ts with
  | nil =>
    rw [String.intercalate_singleton, toList_member hs, toList_quoted]
    exact ⟨_, rfl⟩
  | cons u ts =>
    rw [toList_joined hs, toList_member hs, toList_quoted]
    exact ⟨_, rfl⟩

/-! ### What texts are read as -/

/-- The text of a value is read as something, whatever comes after it. The fuel that is asked for is
what a reader of whole texts has for a text of this length. -/
def ReadsAs (style : Style) (v : Value) (r : Except ReadError Value) : Prop :=
  ∀ ⦃depth fuel : Nat⦄ ⦃text : String⦄ ⦃rest : List Char⦄,
    writeAt style depth v = .ok text → 2 * text.toList.length ≤ fuel + 1 → Ends rest →
      readValue (fuel + 1) (text.toList ++ rest) = r.map fun w => (w, rest)

theorem readsAs_null : ReadsAs style .null (.ok .null) := fun _ _ _ _ h _ _ => by
  cases h
  rfl

theorem readsAs_bool (b : Bool) : ReadsAs style (.bool b) (.ok (.bool b)) := by
  intro _ _ _ _ h _ _
  cases b <;> cases h <;> rfl

theorem readsAs_int (n : Int) : ReadsAs style (.int n) (.ok (.int n)) := by
  intro depth fuel text rest h _ hrest
  obtain ⟨rfl, hn⟩ := intText_eq_ok h
  have hread := readNumber?_int hn hrest
  rw [toList_int, List.append_assoc] at hread ⊢
  exact readValue_number (whole_toDigits _) hread

theorem readsAs_str (s : String) : ReadsAs style (.str s) (.ok (.str s)) := by
  intro depth fuel text rest h _ _
  obtain rfl := Except.ok.inj h
  rw [toList_quoted, List.cons_append, List.append_assoc, readValue, List.singleton_append,
    readString_escaped]
  exact congrArg (fun s => Except.ok (Value.str s, rest)) String.ofList_toList

theorem mapM_cons_bind {α β : Type} (f : α → Except ReadError β) (a : α) (as : List α) :
    (a :: as).mapM f = (f a).bind fun b => (as.mapM f).map (b :: ·) := by
  rw [List.mapM_cons]
  cases f a with
  | error e => rfl
  | ok b => cases as.mapM f <;> rfl

/-- The entries of an object, with what their values are read as. -/
def entriesAs (f : Value → Except ReadError Value) (entries : Entries) : Except ReadError Entries :=
  entries.mapM fun e => (f e.2).map (e.1, ·)

theorem entriesAs_cons (f : Value → Except ReadError Value) (k v : Value) (entries : Entries) :
    entriesAs f ((k, v) :: entries)
      = (f v).bind fun w => (entriesAs f entries).map ((k, w) :: ·) := by
  rw [entriesAs, mapM_cons_bind]
  cases f v <;> rfl

section Joined

variable {pad : List Char}

theorem readItems_written (hs : style.Spaced comma colon) (hpad : Blank pad)
    {f : Value → Except ReadError Value} {items : List Value} (hplain : Value.PlainItems p items)
    (hback : ∀ v ∈ items, ReadsAs style v (f v)) (hne : items ≠ []) {texts : List String}
    (h : writeItems style depth items = .ok texts)
    (hfuel : 2 * ((style.joint depth).intercalate texts).toList.length ≤ fuel) :
    readItems (fuel + 1) (((style.joint depth).intercalate texts).toList ++ (pad ++ ']' :: rest))
      = (items.mapM f).map fun vs => (vs, rest) := by
  induction items generalizing texts fuel with
  | nil => exact absurd rfl hne
  | cons v items ih =>
    obtain ⟨hv, hitems⟩ := List.forall_mem_cons.mp hback
    obtain ⟨t, ts, rfl, ht, hts⟩ := writeItems_cons h
    have hpos := (begins_written hplain.1 ht).length_pos
    cases items with
    | nil =>
      obtain rfl : [] = ts := Except.ok.inj hts
      rw [String.intercalate_singleton] at hfuel ⊢
      obtain ⟨fuel, rfl⟩ : ∃ f, fuel = f + 1 := ⟨fuel - 1, by omega⟩
      have hread := hv ht hfuel (hpad.ends (ends_close rest))
      rw [readItems_last hpad hread, mapM_cons_bind]
      cases f v <;> rfl
    | cons w more =>
      obtain ⟨u, us, rfl, -, -⟩ := writeItems_cons hts
      rw [toList_joined hs] at hfuel ⊢
      simp only [List.length_cons, List.length_append] at hfuel
      obtain ⟨fuel, rfl⟩ : ∃ f, fuel = f + 1 := ⟨fuel - 1, by omega⟩
      have hvfuel : 2 * t.toList.length ≤ fuel + 1 := by omega
      have hmorefuel : 2 * ((style.joint depth).intercalate (u :: us)).toList.length ≤ fuel := by
        omega
      have hmore := ih hplain.2 hitems (List.cons_ne_nil w more) hts hmorefuel
      have hread := hv ht hvfuel (ends_comma (comma ++ (style.breakAt depth).toList
        ++ (((style.joint depth).intercalate (u :: us)).toList ++ (pad ++ ']' :: rest))))
      rw [List.append_assoc, List.cons_append, List.append_assoc,
        readItems_more (hs.blank_joint depth) hread ((begins_items hs hplain.2.1 hts).append _),
        hmore, mapM_cons_bind f v]
      cases f v with
      | error e => rfl
      | ok v => cases (w :: more).mapM f <;> rfl

theorem readMembers_written (hs : style.Spaced comma colon) (hpad : Blank pad)
    {f : Value → Except ReadError Value} {entries : Entries}
    (hplain : Value.PlainEntries p entries) (hback : ∀ e ∈ entries, ReadsAs style e.2 (f e.2))
    (hne : entries ≠ []) {texts : List String}
    (h : (writeEntries style depth entries).mapM (entryText style) = .ok texts)
    (hfuel : 2 * ((style.joint depth).intercalate texts).toList.length ≤ fuel) :
    readMembers (fuel + 1)
        (((style.joint depth).intercalate texts).toList ++ (pad ++ '\x7d' :: rest))
      = (entriesAs f entries).map fun es => (es, rest) := by
  induction entries generalizing texts fuel with
  | nil => exact absurd rfl hne
  | cons e entries ih =>
    obtain ⟨k, v⟩ := e
    obtain ⟨⟨s, rfl⟩, hplainv, hrest⟩ := hplain
    obtain ⟨hv, hentries⟩ := List.forall_mem_cons.mp hback
    obtain ⟨t, ts, rfl, ht, hts⟩ := writeEntries_cons h
    have hbegins := begins_written hplainv ht
    have hpos := hbegins.length_pos
    cases entries with
    | nil =>
      obtain rfl : [] = ts := Except.ok.inj hts
      rw [String.intercalate_singleton, toList_member hs] at hfuel ⊢
      simp only [List.length_cons, List.length_append] at hfuel
      obtain ⟨fuel, rfl⟩ : ∃ f, fuel = f + 1 := ⟨fuel - 1, by omega⟩
      have hvfuel : 2 * t.toList.length ≤ fuel + 1 := by omega
      have hread := hv ht hvfuel (hpad.ends (ends_closeBrace rest))
      rw [List.append_assoc, List.cons_append, List.append_assoc,
        readMembers_last hs.blank_colon hpad (hbegins.append _) hread, entriesAs_cons]
      cases f v <;> rfl
    | cons e more =>
      obtain ⟨l, w⟩ := e
      obtain ⟨name, rfl⟩ := hrest.1
      obtain ⟨u, us, rfl, -, -⟩ := writeEntries_cons hts
      rw [toList_joined hs, toList_member hs] at hfuel ⊢
      simp only [List.length_cons, List.length_append] at hfuel
      obtain ⟨fuel, rfl⟩ : ∃ f, fuel = f + 1 := ⟨fuel - 1, by omega⟩
      have hvfuel : 2 * t.toList.length ≤ fuel + 1 := by omega
      have hmorefuel : 2 * ((style.joint depth).intercalate
          (memberText style name u :: us)).toList.length ≤ fuel := by omega
      have hmore := ih hrest hentries (List.cons_ne_nil _ more) hts hmorefuel
      have hread := hv ht hvfuel (ends_comma (comma ++ (style.breakAt depth).toList
        ++ (((style.joint depth).intercalate (memberText style name u :: us)).toList
          ++ (pad ++ '\x7d' :: rest))))
      have hbeginsmore := (begins_member hs name u).joined hs depth us
      rw [List.append_assoc, List.append_assoc, List.cons_append, List.cons_append,
        List.append_assoc, List.append_assoc,
        readMembers_more hs.blank_colon (hs.blank_joint depth) (hbegins.append _) hread
          (hbeginsmore.append _), hmore, entriesAs_cons f _ v]
      cases f v with
      | error e => rfl
      | ok v => cases entriesAs f ((.str name, w) :: more) <;> rfl

end Joined

theorem readsAs_list (hs : style.Spaced comma colon) {f : Value → Except ReadError Value}
    {node : NodeId} {items : List Value} (hplain : Value.PlainItems p items)
    (hback : ∀ v ∈ items, ReadsAs style v (f v)) :
    ReadsAs style (.array node .list items) ((items.mapM f).map .list) := by
  intro depth fuel text rest h hfuel _
  obtain ⟨texts, htexts, rfl⟩ := writeAt_list h
  cases items with
  | nil =>
    obtain rfl : [] = texts := Except.ok.inj htexts
    rw [enclose_nil]
    rfl
  | cons v more =>
    have hbegins := begins_items hs hplain.1 htexts
    have hpos := hbegins.length_pos
    obtain ⟨t, ts, rfl, -, -⟩ := writeItems_cons htexts
    rw [toList_enclose rfl rfl (a := '[') (b := ']')] at hfuel ⊢
    simp only [List.length_cons, List.length_append, List.length_nil] at hfuel
    obtain ⟨fuel, rfl⟩ : ∃ f, fuel = f + 1 := ⟨fuel - 1, by omega⟩
    have hitemsfuel :
        2 * ((style.joint (depth + 1)).intercalate (t :: ts)).toList.length ≤ fuel := by omega
    rw [List.cons_append, List.append_assoc, List.append_assoc, List.append_assoc,
      List.singleton_append, readValue_items (blank_breakAt style (depth + 1)) (hbegins.append _),
      readItems_written hs (blank_breakAt style depth) hplain hback (List.cons_ne_nil v more)
        htexts hitemsfuel]
    cases (v :: more).mapM f <;> rfl

/-- An object is read as its members are, in the order in which they were written. -/
theorem readsAs_dict (hs : style.Spaced comma colon) {f : Value → Except ReadError Value}
    {node : NodeId} {entries es : Entries} (hordered : style.ordered entries = .ok es)
    (hplain : Value.PlainEntries p es) (hback : ∀ e ∈ es, ReadsAs style e.2 (f e.2)) :
    ReadsAs style (.object node .plain entries)
      ((entriesAs f es).map fun es => .dict (Value.ofPairs es)) := by
  intro depth fuel text rest h hfuel _
  obtain ⟨es', texts, hes, htexts, rfl⟩ := writeAt_dict h
  obtain rfl := Except.ok.inj (hordered.symm.trans hes)
  cases es with
  | nil =>
    obtain rfl : [] = texts := Except.ok.inj htexts
    rw [enclose_nil]
    rfl
  | cons e more =>
    obtain ⟨k, v⟩ := e
    obtain ⟨s, rfl⟩ := hplain.1
    obtain ⟨after, hquote⟩ := joined_entries hs htexts
    obtain ⟨member, ts, rfl⟩ : ∃ member ts, texts = member :: ts := by
      obtain ⟨t, ts, rfl, -, -⟩ := writeEntries_cons htexts
      exact ⟨memberText style s t, ts, rfl⟩
    rw [toList_enclose rfl rfl (a := '\x7b') (b := '\x7d')] at hfuel ⊢
    simp only [List.length_cons, List.length_append, List.length_nil] at hfuel
    obtain ⟨fuel, rfl⟩ : ∃ f, fuel = f + 1 := ⟨fuel - 1, by omega⟩
    have hentriesfuel :
        2 * ((style.joint (depth + 1)).intercalate (member :: ts)).toList.length ≤ fuel := by omega
    have hread : readMembers (fuel + 1) (((style.joint (depth + 1)).intercalate
        (member :: ts)).toList ++ ((style.breakAt depth).toList ++ '\x7d' :: rest))
          = (entriesAs f ((.str s, v) :: more)).map fun es => (es, rest) :=
      readMembers_written hs (blank_breakAt style depth) hplain hback (List.cons_ne_nil _ more)
        htexts hentriesfuel
    rw [hquote, List.cons_append] at hread
    rw [hquote, List.cons_append, List.append_assoc, List.append_assoc, List.append_assoc,
      List.singleton_append, List.cons_append, readValue_members (blank_breakAt style (depth + 1)),
      hread]
    cases entriesAs f ((.str s, v) :: more) <;> rfl

/-- **A value as a whole text.** -/
theorem ReadsAs.read {v : Value} {r : Except ReadError Value} (hback : ReadsAs style v r)
    (hv : v.Plain p) (h : write style v = .ok text) : read text.toList = r := by
  have hbegins := begins_written hv h
  have hfuel : 2 * text.toList.length ≤ 2 * text.toList.length + 1 + 1 := by omega
  have hread := hback h hfuel ends_nil
  rw [List.append_nil] at hread
  have hhead : ¬ (text.toList.head? == some '\uFEFF') = true := by
    obtain ⟨c, cs, hcs, -, -, hc⟩ := hbegins
    rw [hcs]
    simpa using hc
  unfold Json.read
  dsimp only
  rw [if_neg hhead, hbegins.skipBlanks]
  change (readValue _ _).bind _ = _
  rw [hread]
  cases r <;> rfl

end Written

end Json

end Attest

import Attest.Proofs.Json.Layout
import Attest.Proofs.Json.RoundTrip
import Attest.Proofs.Value.Arranged

/-!
# The canonical text

The canonical text of a tree does not depend on the order of its keys, and tells everything else
about it. For the first, entries are sorted wherever they are written, so that a tree and its
arrangement have one text. For the second, the text is read again, in spite of its escapes, and what
comes of it is the arrangement.

## Main definitions

* `Value.Precise` — JSON trees without floating numbers, and with no name twice in an object

## Main results

* `Json.writeAt_arranged` — a tree is written as its arrangement
* `Json.readsAs_arranged` — the canonical text of a tree is read as its arrangement
* `Json.canonical_eq_iff` — two trees have one canonical text iff they are the same up to the order
  of keys
-/

namespace Attest

namespace Value

/-- A JSON tree without floating numbers, and with no name twice in an object. -/
structure Precise (v : Value) : Prop where
  isJson : v.IsJson
  wellFormed : v.WellFormed
  noFloats : v.Floats fun _ => False

theorem Exact.precise {v : Value} (h : v.Exact) : v.Precise where
  isJson := h.shown.isJson
  wellFormed := h.wellFormed
  noFloats := h.noFloats

theorem precise_list_iff {items : List Value} :
    (list items).Precise ↔ ∀ v ∈ items, v.Precise := by
  have hjson : (list items).IsJson ↔ ∀ v ∈ items, v.IsJson := plainItems_iff
  have hwell : (list items).WellFormed ↔ ∀ v ∈ items, v.WellFormed := wellFormedItems_iff
  have hfloats : (list items).Floats (fun _ => False) ↔ ∀ v ∈ items, v.Floats fun _ => False :=
    floatsItems_iff
  constructor
  · intro h v hv
    exact ⟨hjson.mp h.isJson v hv, hwell.mp h.wellFormed v hv, hfloats.mp h.noFloats v hv⟩
  · intro h
    exact ⟨hjson.mpr fun v hv => (h v hv).isJson, hwell.mpr fun v hv => (h v hv).wellFormed,
      hfloats.mpr fun v hv => (h v hv).noFloats⟩

theorem precise_dict_iff {entries : Entries} :
    (dict entries).Precise ↔
      UniqueNames (entries.map Prod.fst) ∧ ∀ e ∈ entries, e.2.Precise := by
  have hjson : (dict entries).IsJson ↔ ∀ e ∈ entries, (∃ s, e.1 = .str s) ∧ e.2.IsJson :=
    plainEntries_iff
  have hwell : (dict entries).WellFormed ↔ (entries.map Prod.fst).Nodup ∧
      ∀ e ∈ entries, (∃ s, e.1 = .str s) ∧ e.2.WellFormed :=
    and_congr_right fun _ => wellFormedEntries_iff
  have hfloats : (dict entries).Floats (fun _ => False) ↔
      ∀ e ∈ entries, e.2.Floats fun _ => False := floatsEntries_iff
  constructor
  · intro h
    obtain ⟨hnodup, hentries⟩ := hwell.mp h.wellFormed
    exact ⟨⟨List.forall_mem_map.mpr fun e he => (hentries e he).1, hnodup⟩,
      fun e he => ⟨(hjson.mp h.isJson e he).2, (hentries e he).2, hfloats.mp h.noFloats e he⟩⟩
  · rintro ⟨hnames, h⟩
    have hkeys := List.forall_mem_map.mp hnames.names
    exact ⟨hjson.mpr fun e he => ⟨hkeys e he, (h e he).isJson⟩,
      hwell.mpr ⟨hnames.nodup, fun e he => ⟨hkeys e he, (h e he).wellFormed⟩⟩,
      hfloats.mpr fun e he => (h e he).noFloats⟩

end Value

namespace Json

variable {p : Int → Prop}

/-! ### Writing the arrangement -/

/-- The entries of an object are sorted before they are written. -/
theorem writeAt_sorted (depth : Nat) (node : NodeId) (entries : Entries) :
    writeAt .canonical depth (.object node .plain entries)
      = (Value.sortEntries (writeEntries .canonical (depth + 1) entries)).bind fun ordered =>
        (ordered.mapM (entryText .canonical)).map
          (Style.canonical.enclose depth "\x7b" "\x7d") := by
  rw [writeAt]
  rfl

mutual

/-- **A tree is written as its arrangement.** -/
theorem writeAt_arranged : ∀ {v : Value} (depth : Nat), v.Plain p → v.WellFormed →
    writeAt .canonical depth v.arranged = writeAt .canonical depth v
  | .null, _, _, _ | .bool _, _, _, _ | .int _, _, _, _ | .float _, _, _, _ | .str _, _, _, _ => rfl
  | .array _ .list items, depth, h, hw => by
    rw [Value.arranged, writeAt, writeAt, writeItems_arranged (depth + 1) h hw]
  | .object _ .plain entries, depth, h, hw => by
    have hnames := hw.2.names hw.1
    rw [← Value.fst_arrangedEntries] at hnames
    have hwritten := writeEntries_arranged (depth + 1) h hw.2
    have hsorted : Value.sortEntries (writeEntries .canonical (depth + 1)
        (Value.inOrder (Value.arrangedEntries entries)))
          = Value.sortEntries (writeEntries .canonical (depth + 1) entries) := by
      have hperm := Value.inOrder_perm hnames
      rw [← hwritten, writeEntries_eq_map, writeEntries_eq_map]
      refine Value.sortEntries_congr ?_ (hperm.map _)
      rw [List.map_map]
      exact hnames.perm (hperm.map Prod.fst)
    rw [Value.arranged, writeAt_sorted, writeAt_sorted, hsorted]

theorem writeItems_arranged : ∀ {items : List Value} (depth : Nat), Value.PlainItems p items →
    Value.WellFormedItems items →
    writeItems .canonical depth (Value.arrangedItems items) = writeItems .canonical depth items
  | [], _, _, _ => rfl
  | v :: rest, depth, h, hw => by
    rw [Value.arrangedItems, writeItems, writeItems, writeAt_arranged depth h.1 hw.1,
      writeItems_arranged depth h.2 hw.2]

theorem writeEntries_arranged : ∀ {entries : Entries} (depth : Nat),
    Value.PlainEntries p entries → Value.WellFormedEntries entries →
    writeEntries .canonical depth (Value.arrangedEntries entries)
      = writeEntries .canonical depth entries
  | [], _, _, _ => rfl
  | (k, v) :: rest, depth, h, hw => by
    rw [Value.arrangedEntries, writeEntries, writeEntries, writeAt_arranged depth h.2.1 hw.2.1,
      writeEntries_arranged depth h.2.2 hw.2.2]

end

/-! ### Reading the arrangement -/

theorem readsAs_arranged_list {node : NodeId} {items : List Value} (h : Value.PlainItems p items)
    (hback : ∀ v ∈ items, ReadsAs .canonical v (.ok v.arranged)) :
    ReadsAs .canonical (.array node .list items) (.ok (.list (Value.arrangedItems items))) := by
  have hread : ReadsAs .canonical (.array node .list items)
      ((items.mapM fun v => Except.ok v.arranged).map .list) :=
    readsAs_list spaced_canonical h hback
  have hall : items.mapM (fun v => Except.ok (ε := ReadError) v.arranged)
      = .ok (Value.arrangedItems items) := by
    rw [Value.arrangedItems_eq_map]
    exact List.mapM_pure
  rwa [hall] at hread

theorem entriesAs_arranged (entries : Entries) :
    entriesAs (fun v => .ok v.arranged) entries = .ok (Value.arrangedEntries entries) := by
  rw [Value.arrangedEntries_eq_map]
  exact List.mapM_pure

/-- An object is read as its arrangement: it was written in order, and is put together in order. -/
theorem readsAs_arranged_dict {node : NodeId} {entries : Entries} (h : Value.PlainEntries p entries)
    (hnames : Value.UniqueNames (entries.map Prod.fst))
    (hback : ∀ e ∈ entries, ReadsAs .canonical e.2 (.ok e.2.arranged)) :
    ReadsAs .canonical (.object node .plain entries)
      (.ok (.dict (Value.inOrder (Value.arrangedEntries entries)))) := by
  have hperm := Value.inOrder_perm hnames
  have hplain : Value.PlainEntries p (Value.inOrder entries) :=
    Value.plainEntries_iff.mpr fun e he => Value.plainEntries_iff.mp h e (hperm.mem_iff.mp he)
  have hread : ReadsAs .canonical (.object node .plain entries)
      ((entriesAs (fun v => .ok v.arranged) (Value.inOrder entries)).map
        fun es => .dict (Value.ofPairs es)) :=
    readsAs_dict spaced_canonical (Value.sortEntries_eq_inOrder hnames) hplain
      fun e he => hback e (hperm.mem_iff.mp he)
  have hordered :
      Value.UniqueNames ((Value.arrangedEntries (Value.inOrder entries)).map Prod.fst) := by
    rw [Value.fst_arrangedEntries]
    exact hnames.perm (hperm.map Prod.fst)
  rw [entriesAs_arranged, Except.map, Value.ofPairs_of_nodup hordered.names hordered.nodup] at hread
  rwa [Value.inOrder_arrangedEntries hnames]

mutual

/-- **The canonical text of a tree is read as its arrangement**, whatever comes after it. -/
theorem readsAs_arranged : ∀ {v : Value}, v.Plain p → v.WellFormed → v.Floats (fun _ => False) →
    ReadsAs .canonical v (.ok v.arranged)
  | .null, _, _, _ => readsAs_null
  | .bool b, _, _, _ => readsAs_bool b
  | .int n, _, _, _ => readsAs_int n
  | .float _, _, _, hf => hf.elim
  | .str s, _, _, _ => readsAs_str s
  | .array _ .list _, h, hw, hf => readsAs_arranged_list h (readsAs_arranged_items h hw hf)
  | .object _ .plain _, h, hw, hf =>
    readsAs_arranged_dict h (hw.2.names hw.1) (readsAs_arranged_entries h hw.2 hf)

theorem readsAs_arranged_items : ∀ {items : List Value}, Value.PlainItems p items →
    Value.WellFormedItems items → Value.FloatsItems (fun _ => False) items →
    ∀ v ∈ items, ReadsAs .canonical v (.ok v.arranged)
  | [], _, _, _ => List.forall_mem_nil _
  | _ :: _, h, hw, hf => List.forall_mem_cons.mpr
    ⟨readsAs_arranged h.1 hw.1 hf.1, readsAs_arranged_items h.2 hw.2 hf.2⟩

theorem readsAs_arranged_entries : ∀ {entries : Entries}, Value.PlainEntries p entries →
    Value.WellFormedEntries entries → Value.FloatsEntries (fun _ => False) entries →
    ∀ e ∈ entries, ReadsAs .canonical e.2 (.ok e.2.arranged)
  | [], _, _, _ => List.forall_mem_nil _
  | (_, _) :: _, h, hw, hf => List.forall_mem_cons.mpr
    ⟨readsAs_arranged h.2.1 hw.2.1 hf.1, readsAs_arranged_entries h.2.2 hw.2.2 hf.2⟩

end

/-! ### One text -/

variable {v w : Value}

/-- Trees that are the same up to the order of keys are written alike, or not at all. -/
theorem write_congr (hv : v.Precise) (hw : w.Precise) (h : v.Reordered w) :
    write .canonical v = write .canonical w := by
  rw [write, ← writeAt_arranged 0 hv.isJson hv.wellFormed,
    (Value.reordered_iff_arranged_eq hv.wellFormed hw.wellFormed).mp h,
    writeAt_arranged 0 hw.isJson hw.wellFormed, write]

/-- **Two trees have one canonical text iff they are the same up to the order of keys.** -/
theorem canonical_eq_iff (hv : v.Precise) (hw : w.Precise) {a b : String}
    (ha : write .canonical v = .ok a) (hb : write .canonical w = .ok b) :
    a = b ↔ v.Reordered w := by
  constructor
  · rintro rfl
    have hreadv := (readsAs_arranged hv.isJson hv.wellFormed hv.noFloats).read hv.isJson ha
    have hreadw := (readsAs_arranged hw.isJson hw.wellFormed hw.noFloats).read hw.isJson hb
    exact (Value.reordered_iff_arranged_eq hv.wellFormed hw.wellFormed).mpr
      (Except.ok.inj (hreadv.symm.trans hreadw))
  · intro h
    exact Except.ok.inj (ha.symm.trans ((write_congr hv hw h).trans hb))

end Json

end Attest

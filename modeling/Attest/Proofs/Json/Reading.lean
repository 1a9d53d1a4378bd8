import Attest.Json.Document
import Attest.Proofs.Json.Numerals
import Attest.Proofs.Value.Floats
import Attest.Proofs.Value.Plain

/-!
# What the reader gives

Whatever is read comes from the text: the reader leaves an end of it. A value has come about in one
of a few ways, and so what holds of numbers and is kept by lists and objects holds of every value
that is read.

## Main definitions

* `Json.ValueRead` — the ways in which a value is read

## Main results

* `Json.read_induct` — what holds of everything that is read
-/

namespace Attest

namespace Json

variable {text rest : List Char}

/-! ### Ends of a text -/

theorem skipBlanks_suffix (text : List Char) : skipBlanks text <:+ text :=
  List.dropWhile_suffix isBlank

theorem readString_suffix {opening : Nat} {cs : List Char}
    (h : readString opening text = .ok (cs, rest)) : rest <:+ text := by
  fun_induction readString opening text generalizing cs rest with
  | case1 | case3 | case4 | case8 | case10 | case11 | case13 | case14 => cases h
  | case2 =>
    cases h
    exact List.suffix_cons _ _
  | case5 | case6 | case7 | case9 | case12 | case15 =>
    rename_i ih
    obtain ⟨⟨_, r⟩, hr, he⟩ := map_eq_ok h
    obtain ⟨-, rfl⟩ := Prod.mk.inj he
    refine (ih hr).trans ?_
    simp [List.suffix_cons_iff]

/-! ### Values -/

/-- The ways in which a value is read: it has no number in it, or is one, or its elements or members
were read. -/
inductive ValueRead (fuel : Nat) (text : List Char) : Value → List Char → Prop where
  | noNumber {v : Value} {rest : List Char} (hplain : v.Plain fun _ => False)
      (hfloats : v.Floats fun _ => False) (hrest : rest <:+ text) : ValueRead fuel text v rest
  | number {v : Value} {rest : List Char} (h : readNumber? text = some (.ok (v, rest))) :
      ValueRead fuel text v rest
  | list {inner rest : List Char} {vs : List Value} (hinner : inner <:+ text)
      (h : readItems fuel inner = .ok (vs, rest)) : ValueRead fuel text (.list vs) rest
  | dict {inner rest : List Char} {es : Entries} (hinner : inner <:+ text)
      (h : readMembers fuel inner = .ok (es, rest)) :
      ValueRead fuel text (.dict (Value.ofPairs es)) rest

theorem readValue_eq_ok {fuel : Nat} {v : Value}
    (h : readValue (fuel + 1) text = .ok (v, rest)) : ValueRead fuel text v rest := by
  unfold readValue at h
  split at h
  · obtain ⟨⟨cs, r⟩, hr, he⟩ := map_eq_ok h
    obtain ⟨rfl, rfl⟩ := Prod.mk.inj he
    exact .noNumber trivial trivial ((readString_suffix hr).trans (List.suffix_cons _ _))
  · next after =>
    have hblanks := (skipBlanks_suffix after).trans (List.suffix_cons '\x7b' after)
    split at h
    · next hskip =>
      obtain ⟨rfl, rfl⟩ := Prod.mk.inj (Except.ok.inj h)
      rw [hskip] at hblanks
      exact .noNumber trivial trivial ((List.suffix_cons _ _).trans hblanks)
    · obtain ⟨⟨es, r⟩, hr, he⟩ := map_eq_ok h
      obtain ⟨rfl, rfl⟩ := Prod.mk.inj he
      exact .dict hblanks hr
  · next after =>
    have hblanks := (skipBlanks_suffix after).trans (List.suffix_cons '[' after)
    split at h
    · next hskip =>
      obtain ⟨rfl, rfl⟩ := Prod.mk.inj (Except.ok.inj h)
      rw [hskip] at hblanks
      exact .noNumber trivial trivial ((List.suffix_cons _ _).trans hblanks)
    · obtain ⟨⟨vs, r⟩, hr, he⟩ := map_eq_ok h
      obtain ⟨rfl, rfl⟩ := Prod.mk.inj he
      exact .list hblanks hr
  · obtain ⟨rfl, rfl⟩ := Prod.mk.inj (Except.ok.inj h)
    exact .noNumber trivial trivial (by simp [List.suffix_cons_iff])
  · obtain ⟨rfl, rfl⟩ := Prod.mk.inj (Except.ok.inj h)
    exact .noNumber trivial trivial (by simp [List.suffix_cons_iff])
  · obtain ⟨rfl, rfl⟩ := Prod.mk.inj (Except.ok.inj h)
    exact .noNumber trivial trivial (by simp [List.suffix_cons_iff])
  · cases h
  · cases h
  · cases h
  · cases hn : readNumber? text with
    | none =>
      rw [hn] at h
      cases h
    | some r =>
      rw [hn, Option.getD_some] at h
      exact .number (hn.trans (congrArg some h))

theorem readItems_eq_ok {fuel : Nat} {vs : List Value}
    (h : readItems (fuel + 1) text = .ok (vs, rest)) :
    ∃ v after, readValue fuel text = .ok (v, after) ∧
      (vs = [v] ∧ rest <:+ after ∨ ∃ inner more, inner <:+ after ∧
        readItems fuel inner = .ok (more, rest) ∧ vs = v :: more) := by
  rw [readItems] at h
  obtain ⟨⟨v, after⟩, hv, h⟩ := bind_eq_ok h
  have hblanks := skipBlanks_suffix after
  refine ⟨v, after, hv, ?_⟩
  dsimp only at h
  split at h
  · next hskip =>
    obtain ⟨rfl, rfl⟩ := Prod.mk.inj (Except.ok.inj h)
    rw [hskip] at hblanks
    exact .inl ⟨rfl, (List.suffix_cons _ _).trans hblanks⟩
  · next inner hskip =>
    obtain ⟨⟨more, last⟩, hmore, h⟩ := bind_eq_ok h
    obtain ⟨rfl, rfl⟩ := Prod.mk.inj (Except.ok.inj h)
    rw [hskip] at hblanks
    exact .inr ⟨_, more, (skipBlanks_suffix inner).trans ((List.suffix_cons _ _).trans hblanks),
      hmore, rfl⟩
  · cases h

theorem readMembers_eq_ok {fuel : Nat} {es : Entries}
    (h : readMembers (fuel + 1) text = .ok (es, rest)) :
    ∃ s inner v after, inner <:+ text ∧ readValue fuel inner = .ok (v, after) ∧
      (es = [(.str s, v)] ∧ rest <:+ after ∨ ∃ inner more, inner <:+ after ∧
        readMembers fuel inner = .ok (more, rest) ∧ es = (.str s, v) :: more) := by
  unfold readMembers at h
  split at h
  · next afterQuote =>
    obtain ⟨⟨name, afterName⟩, hname, h⟩ := bind_eq_ok h
    have hbefore := (skipBlanks_suffix afterName).trans
      ((readString_suffix hname).trans (List.suffix_cons '"' afterQuote))
    dsimp only at h
    split at h
    · next afterColon hcolon =>
      obtain ⟨⟨v, after⟩, hv, h⟩ := bind_eq_ok h
      rw [hcolon] at hbefore
      have hblanks := skipBlanks_suffix after
      refine ⟨String.ofList name, _, v, after,
        (skipBlanks_suffix afterColon).trans ((List.suffix_cons _ _).trans hbefore), hv, ?_⟩
      dsimp only at h
      split at h
      · next hskip =>
        obtain ⟨rfl, rfl⟩ := Prod.mk.inj (Except.ok.inj h)
        rw [hskip] at hblanks
        exact .inl ⟨rfl, (List.suffix_cons _ _).trans hblanks⟩
      · next inner hskip =>
        obtain ⟨⟨more, last⟩, hmore, h⟩ := bind_eq_ok h
        obtain ⟨rfl, rfl⟩ := Prod.mk.inj (Except.ok.inj h)
        rw [hskip] at hblanks
        exact .inr ⟨_, more,
          (skipBlanks_suffix inner).trans ((List.suffix_cons _ _).trans hblanks), hmore, rfl⟩
      · cases h
    · cases h
  · cases h

/-! ### Everything that is read -/

section

variable {whole : List Char} {P : Value → Prop}

/-- What holds of the numbers of a text and is kept by lists and objects holds of what the readers
give. By induction on the fuel: all calls of a reader have less of it. -/
theorem readers_induct
    (noNumber : ∀ {v : Value}, v.Plain (fun _ => False) → v.Floats (fun _ => False) → P v)
    (number : ∀ {text rest v}, text <:+ whole → readNumber? text = some (.ok (v, rest)) → P v)
    (list : ∀ {vs : List Value}, (∀ v ∈ vs, P v) → P (.list vs))
    (dict : ∀ {es : Entries}, (∀ e ∈ es, (∃ s, e.1 = .str s) ∧ P e.2) →
      P (.dict (Value.ofPairs es))) (fuel : Nat) :
    (∀ {text v rest}, text <:+ whole → readValue fuel text = .ok (v, rest) →
        P v ∧ rest <:+ text) ∧
      (∀ {text vs rest}, text <:+ whole → readItems fuel text = .ok (vs, rest) →
        (∀ v ∈ vs, P v) ∧ rest <:+ text) ∧
      ∀ {text es rest}, text <:+ whole → readMembers fuel text = .ok (es, rest) →
        (∀ e ∈ es, (∃ s, e.1 = .str s) ∧ P e.2) ∧ rest <:+ text := by
  induction fuel with
  | zero => exact ⟨fun _ => nofun, fun _ => nofun, fun _ => nofun⟩
  | succ fuel ih =>
    obtain ⟨ihValue, ihItems, ihMembers⟩ := ih
    refine ⟨fun htext h => ?_, fun htext h => ?_, fun htext h => ?_⟩
    · cases readValue_eq_ok h with
      | noNumber hplain hfloats hrest => exact ⟨noNumber hplain hfloats, hrest⟩
      | number h =>
        obtain ⟨literal, _, _, _, rfl, -⟩ := readNumber?_eq_ok h
        exact ⟨number htext h, List.suffix_append literal _⟩
      | list hinner h =>
        obtain ⟨hvs, hrest⟩ := ihItems (hinner.trans htext) h
        exact ⟨list hvs, hrest.trans hinner⟩
      | dict hinner h =>
        obtain ⟨hes, hrest⟩ := ihMembers (hinner.trans htext) h
        exact ⟨dict hes, hrest.trans hinner⟩
    · obtain ⟨v, after, hv, hrest⟩ := readItems_eq_ok h
      obtain ⟨hPv, hafter⟩ := ihValue htext hv
      rcases hrest with ⟨rfl, hrest⟩ | ⟨inner, more, hinner, hmore, rfl⟩
      · exact ⟨List.forall_mem_singleton.mpr hPv, hrest.trans hafter⟩
      · obtain ⟨hPmore, hrest⟩ := ihItems ((hinner.trans hafter).trans htext) hmore
        exact ⟨List.forall_mem_cons.mpr ⟨hPv, hPmore⟩, hrest.trans (hinner.trans hafter)⟩
    · obtain ⟨s, inner, v, after, hinner, hv, hrest⟩ := readMembers_eq_ok h
      obtain ⟨hPv, hafter⟩ := ihValue (hinner.trans htext) hv
      have hafter := hafter.trans hinner
      rcases hrest with ⟨rfl, hrest⟩ | ⟨inner, more, hinner, hmore, rfl⟩
      · exact ⟨List.forall_mem_singleton.mpr ⟨⟨s, rfl⟩, hPv⟩, hrest.trans hafter⟩
      · obtain ⟨hPmore, hrest⟩ := ihMembers ((hinner.trans hafter).trans htext) hmore
        exact ⟨List.forall_mem_cons.mpr ⟨⟨⟨s, rfl⟩, hPv⟩, hPmore⟩,
          hrest.trans (hinner.trans hafter)⟩

/-- **What holds of everything that is read**: whatever holds of the numbers of the text and is kept
by lists and objects. -/
theorem read_induct {v : Value} (h : read whole = .ok v)
    (noNumber : ∀ {v : Value}, v.Plain (fun _ => False) → v.Floats (fun _ => False) → P v)
    (number : ∀ {text rest v}, text <:+ whole → readNumber? text = some (.ok (v, rest)) → P v)
    (list : ∀ {vs : List Value}, (∀ v ∈ vs, P v) → P (.list vs))
    (dict : ∀ {es : Entries}, (∀ e ∈ es, (∃ s, e.1 = .str s) ∧ P e.2) →
      P (.dict (Value.ofPairs es))) : P v := by
  unfold read at h
  dsimp only at h
  split at h
  · cases h
  · obtain ⟨⟨w, rest⟩, hw, h⟩ := bind_eq_ok h
    dsimp only at h
    split at h
    · cases h
      exact ((readers_induct noNumber number list dict _).1 (skipBlanks_suffix whole) hw).1
    · cases h

end

end Json

end Attest

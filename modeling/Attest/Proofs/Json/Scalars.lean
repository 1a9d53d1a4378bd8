import Attest.Json.Writer
import Attest.Proofs.Json.Numerals

/-!
# Strings and numbers that were written

The reader takes from a text what the writer put there, and leaves what comes after it. For a string
this is shown character by character: whatever form a character was given, it is read back, and the
reading goes on behind it.

The digits of an integer say which it is. Of the text of a finite number it is shown only that it is
the text of a number, with a point or an exponent in it.

## Main definitions

* `Double.Spells` — the text of a number that is no integer

## Main results

* `Json.readString_escaped` — a string that was written is read back
* `Json.readNumber?_int`, `Json.readNumber?_render` — so is a number
-/

namespace Attest

namespace Json

/-! ### Strings -/

/-- A character put before the string that was read. -/
def before (c : Char) : List Char × List Char → List Char × List Char := fun (cs, r) => (c :: cs, r)

variable {opening : Nat}

theorem readString_plain {c : Char} (hquote : c ≠ '"') (hslash : c ≠ '\\') (hc : 0x20 ≤ c.toNat)
    (rest : List Char) :
    readString opening (c :: rest) = (readString opening rest).map (before c) := by
  rw [readString.eq_8]
  · exact if_neg (Nat.not_lt.mpr hc)
  · exact hquote
  all_goals
    intros
    exact hslash ‹_›

theorem readString_simple {c e : Char} (hc : simpleEscape? c = some e) (rest : List Char) :
    readString opening ('\\' :: c :: rest) = (readString opening rest).map (before e) := by
  have hu : c ≠ 'u' := by
    rintro rfl
    cases hc
  rw [readString.eq_7, hc]
  · rfl
  all_goals
    intros
    exact hu ‹_›

/-- An escape of a code unit that is no surrogate is read back, if the string is not over yet. -/
theorem readString_unit {a b c d : Char} {n : Nat} (hn : hexNumber? [a, b, c, d] = some n)
    (hunit : isHighSurrogate n = false) {rest : List Char} (hrest : rest ≠ []) :
    readString opening ('\\' :: 'u' :: a :: b :: c :: d :: rest)
      = (readString opening rest).map (before (charOf n)) := by
  obtain ⟨e, rest, rfl⟩ := List.exists_cons_of_ne_nil hrest
  by_cases hpair : ∃ f g h i j more, e = '\\' ∧ rest = 'u' :: f :: g :: h :: i :: j :: more
  · obtain ⟨f, g, h, i, j, more, rfl, rfl⟩ := hpair
    rw [readString, hn]
    simp only [hunit, Bool.false_eq_true, if_false]
    rfl
  · rw [readString.eq_4, hn]
    · rfl
    · rintro f g h i j more rfl rfl
      exact hpair ⟨f, g, h, i, j, more, rfl, rfl⟩

/-- Two surrogates make up one character, if the string is not over yet. -/
theorem readString_pair {a b c d e f g h : Char} {high low : Nat}
    (hhigh : hexNumber? [a, b, c, d] = some high) (hfirst : isHighSurrogate high = true)
    (hlow : hexNumber? [e, f, g, h] = some low) (hsecond : isLowSurrogate low = true)
    {rest : List Char} (hrest : rest ≠ []) :
    readString opening ('\\' :: 'u' :: a :: b :: c :: d :: '\\' :: 'u' :: e :: f :: g :: h :: rest)
      = (readString opening rest).map (before (joinSurrogates high low)) := by
  obtain ⟨i, rest, rfl⟩ := List.exists_cons_of_ne_nil hrest
  rw [readString, hhigh]
  simp only [hfirst, hlow, hsecond, if_true]
  rfl

theorem hexValue?_digitChar : ∀ d < 16, hexValue? (Nat.digitChar d) = some d := by decide

/-- Digits in base 16, behind others that were read. -/
theorem foldlM_hexDigits (count n read : Nat) :
    (hexDigits count n).foldlM (fun n c => (hexValue? c).map (16 * n + ·)) read
      = some (16 ^ count * read + n % 16 ^ count) := by
  induction count generalizing n with
  | zero => simp [hexDigits, Nat.mod_one]
  | succ count ih =>
    have hlast : hexValue? (Nat.digitChar (n % 16)) = some (n % 16) :=
      hexValue?_digitChar _ (Nat.mod_lt _ (by decide))
    rw [hexDigits, List.foldlM_append, ih]
    simp only [List.foldlM_cons, List.foldlM_nil, hlast, Option.map_some, bind, Option.bind, pure]
    rw [Nat.pow_succ', Nat.mod_mul, Nat.mul_add, Nat.mul_assoc]
    congr 1
    omega

theorem hexNumber?_hexDigits {n : Nat} (hn : n < 0x10000) :
    hexNumber? (hexDigits 4 n) = some n := by
  have hmod : n % 16 ^ 4 = n := Nat.mod_eq_of_lt hn
  rw [hexNumber?, foldlM_hexDigits, Nat.mul_zero, Nat.zero_add, hmod]

theorem charOf_toNat (c : Char) : charOf c.toNat = c := by
  have hvalid : c.toNat.isValidChar := c.valid
  rw [charOf, dif_pos hvalid]
  exact Char.ext (UInt32.toNat_inj.mp rfl)

/-- No character is a surrogate. -/
theorem isHighSurrogate_toNat (c : Char) : isHighSurrogate c.toNat = false := by
  have hvalid : c.toNat.isValidChar := c.valid
  unfold Nat.isValidChar at hvalid
  simp only [isHighSurrogate, Bool.and_eq_false_iff, decide_eq_false_iff_not]
  omega

theorem joinSurrogates_halves {c : Char} (hc : 0x10000 ≤ c.toNat) :
    joinSurrogates (0xD800 + (c.toNat - 0x10000) / 0x400) (0xDC00 + (c.toNat - 0x10000) % 0x400)
      = c := by
  have hn : 0x10000 + (0xD800 + (c.toNat - 0x10000) / 0x400 - 0xD800) * 0x400
      + (0xDC00 + (c.toNat - 0x10000) % 0x400 - 0xDC00) = c.toNat := by omega
  rw [joinSurrogates, hn, Char.ofNat_toNat]

/-- A character is written as a short escape, as one or two numeric ones, or as it is. -/
theorem escapeChar_cases (ascii : Bool) (c : Char) :
    (∃ e, escapeChar ascii c = ['\\', e] ∧ simpleEscape? e = some c) ∨
      escapeChar ascii c = unitEscape c.toNat ∧ c.toNat < 0x10000 ∨
      escapeChar ascii c = asciiEscape c ∧ 0x10000 ≤ c.toNat ∨
      escapeChar ascii c = [c] ∧ c ≠ '"' ∧ c ≠ '\\' ∧ 0x20 ≤ c.toNat := by
  unfold escapeChar
  iterate 7
    split
    · next h =>
      subst h
      exact .inl ⟨_, rfl, rfl⟩
  split
  · next hc => exact .inr (.inl ⟨rfl, by omega⟩)
  · next hquote hslash _ _ _ _ _ hc =>
    split
    · rcases Nat.lt_or_ge c.toNat 0x10000 with hlt | hge
      · exact .inr (.inl ⟨if_pos hlt, hlt⟩)
      · exact .inr (.inr (.inl ⟨rfl, hge⟩))
    · exact .inr (.inr (.inr ⟨rfl, hquote, hslash, Nat.not_lt.mp hc⟩))

/-- A character beyond the basic plane is read back from its two surrogates. -/
theorem readString_asciiEscape {c : Char} (hc : 0x10000 ≤ c.toNat) {rest : List Char}
    (hrest : rest ≠ []) :
    readString opening (asciiEscape c ++ rest) = (readString opening rest).map (before c) := by
  have hvalid : c.toNat.isValidChar := c.valid
  unfold Nat.isValidChar at hvalid
  have hfirst : isHighSurrogate (0xD800 + (c.toNat - 0x10000) / 0x400) = true := by
    simp only [isHighSurrogate, Bool.and_eq_true, decide_eq_true_eq]
    omega
  have hsecond : isLowSurrogate (0xDC00 + (c.toNat - 0x10000) % 0x400) = true := by
    simp only [isLowSurrogate, Bool.and_eq_true, decide_eq_true_eq]
    omega
  have hread : readString opening (unitEscape (0xD800 + (c.toNat - 0x10000) / 0x400)
      ++ unitEscape (0xDC00 + (c.toNat - 0x10000) % 0x400) ++ rest)
        = (readString opening rest).map (before (joinSurrogates _ _)) :=
    readString_pair (hexNumber?_hexDigits (by omega)) hfirst (hexNumber?_hexDigits (by omega))
      hsecond hrest
  rw [asciiEscape, if_neg (Nat.not_lt.mpr hc), hread, joinSurrogates_halves hc]

/-- **In whatever form a character is written, it is read back.** -/
theorem readString_escapeChar (ascii : Bool) (c : Char) {rest : List Char} (hrest : rest ≠ []) :
    readString opening (escapeChar ascii c ++ rest) = (readString opening rest).map (before c) := by
  rcases escapeChar_cases ascii c with
    ⟨e, he, hsimple⟩ | ⟨he, hc⟩ | ⟨he, hc⟩ | ⟨he, hquote, hslash, hc⟩ <;> rw [he]
  · exact readString_simple hsimple rest
  · have hread : readString opening (unitEscape c.toNat ++ rest)
        = (readString opening rest).map (before (charOf c.toNat)) :=
      readString_unit (hexNumber?_hexDigits hc) (isHighSurrogate_toNat c) hrest
    rwa [charOf_toNat] at hread
  · exact readString_asciiEscape hc hrest
  · exact readString_plain hquote hslash hc rest

/-- **A string that was written is read back**, up to its closing quote. -/
theorem readString_escaped (ascii : Bool) (cs rest : List Char) :
    readString opening (cs.flatMap (escapeChar ascii) ++ '"' :: rest) = .ok (cs, rest) := by
  induction cs with
  | nil => rfl
  | cons c cs ih =>
    rw [List.flatMap_cons, List.append_assoc, readString_escapeChar ascii c (by simp), ih]
    rfl

/-! ### Digits -/

theorem isDigit_toDigits {n : Nat} : ∀ c ∈ Nat.toDigits 10 n, isDigit c = true := fun _ hc =>
  Nat.isDigit_of_mem_toDigits (by decide) (by decide) hc

theorem decimalNumber_toDigits (n : Nat) : decimalNumber (Nat.toDigits 10 n) = n :=
  Nat.ofDigitChars_eq_foldl.symm.trans Nat.ofDigitChars_ten_toDigits

/-- The first digit of a positive number is no zero. By induction on the number without its last
digit. -/
theorem head_toDigits {n : Nat} (hn : 0 < n) :
    ∃ c cs, Nat.toDigits 10 n = c :: cs ∧ c ≠ '0' := by
  induction n using Nat.strongRecOn with
  | ind n ih =>
    rcases Nat.lt_or_ge n 10 with hlt | hge
    · exact ⟨_, [], Nat.toDigits_of_lt_base hlt, fun h => by
        rw [Nat.digitChar_eq_zero] at h
        omega⟩
    · obtain ⟨c, cs, hcs, hc⟩ := ih (n / 10) (by omega) (by omega)
      refine ⟨c, cs ++ [(n % 10).digitChar], ?_, hc⟩
      rw [Nat.toDigits_of_base_le (by decide) hge, hcs, List.cons_append]

theorem whole_toDigits (n : Nat) : Whole (Nat.toDigits 10 n) := by
  rcases Nat.eq_zero_or_pos n with rfl | hn
  · rw [Nat.toDigits_zero]
    exact .zero
  · obtain ⟨c, cs, hcs, hc⟩ := head_toDigits hn
    have hdigits := isDigit_toDigits (n := n)
    rw [hcs, List.forall_mem_cons] at hdigits
    rw [hcs]
    exact .digits hdigits.1 hc hdigits.2

/-! ### Numbers -/

theorem toList_int (n : Int) :
    (toString n).toList = minus (decide (n < 0)) ++ Nat.toDigits 10 n.natAbs := by
  rw [Int.toString_eq_repr, Int.repr_eq_if]
  split
  · next h =>
    have habs : n.toNat = n.natAbs := by omega
    rw [Nat.toList_repr, decide_eq_false (Int.not_lt.mpr h), habs]
    rfl
  · next h =>
    have habs : (-n).toNat = n.natAbs := by omega
    rw [String.toList_append, Nat.toList_repr, decide_eq_true (Int.not_le.mp h), habs]
    rfl

/-- **An integer that was written is read back.** -/
theorem readNumber?_int {n : Int} (hn : n.natAbs < digitBound) {rest : List Char}
    (hrest : Ends rest) :
    readNumber? ((toString n).toList ++ rest) = some (.ok (.int n, rest)) := by
  have hlength : ¬ digitLimit < (Nat.toDigits 10 n.natAbs).length := by
    unfold digitBound at hn
    exact Nat.not_lt.mpr (length_toDigits_le (by decide) hn)
  have hsigned : (if n < 0 then -(n.natAbs : Int) else (n.natAbs : Int)) = n := by
    split <;> omega
  have hread : readNumber? (minus (decide (n < 0)) ++ (Nat.toDigits 10 n.natAbs ++ rest))
      = some (numberOf (decide (n < 0)) (Nat.toDigits 10 n.natAbs) [] none rest) :=
    readNumber?_append (whole_toDigits _) .none .none hrest
  rw [toList_int, List.append_assoc, hread, numberOf]
  simp only [List.isEmpty_nil, Option.isNone_none, and_self, if_true, if_neg hlength,
    decimalNumber_toDigits, decide_eq_true_eq, hsigned]

end Json

namespace Double

open Json

/-! ### Finite numbers -/

theorem Decimal.trim_pos : ∀ (n : Nat) {d : Decimal}, 0 < d.digits → 0 < (d.trim n).digits
  | 0, _, h => h
  | n + 1, d, h => by
    rw [Decimal.trim]
    split
    · next hd => exact Decimal.trim_pos n (show 0 < d.digits / 10 by omega)
    · exact h

/-- Of two candidates, the one that is taken passes the test. -/
theorem test_of_first {test : Decimal → Bool} {first second d : Decimal}
    (h : (if test first then some first else if test second then some second else none) = some d) :
    test d = true := by
  split at h
  · next hfirst => exact Option.some.inj h ▸ hfirst
  · split at h
    · next hsecond => exact Option.some.inj h ▸ hsecond
    · cases h

theorem onGrid?_pos {num den : Nat} {interval : RoundingInterval} {top : Int} {count : Nat}
    {d : Decimal} (h : onGrid? num den interval top count = some d) : 0 < d.digits := by
  unfold onGrid? at h
  extract_lets unit hit at h
  split at h
  extract_lets at h
  have hhit : hit d = true := test_of_first h
  exact of_decide_eq_true (Bool.and_eq_true_iff.mp hhit).1

theorem shortest_pos {mantissa : Nat} (hm : mantissa ≠ 0) (exponent : Int) :
    0 < (shortest mantissa exponent).digits := by
  unfold shortest
  dsimp only
  refine Decimal.trim_pos 20 ?_
  cases hfound : (List.range 17).findSome? _ with
  | none => exact Nat.pos_of_ne_zero hm
  | some d =>
    obtain ⟨k, -, hk⟩ := List.exists_of_findSome?_eq_some hfound
    exact onGrid?_pos hk

theorem toList_zeros (n : Nat) : (zeros n).toList = List.replicate n '0' := String.toList_ofList

theorem isDigit_zeros {n : Nat} : ∀ c ∈ List.replicate n '0', isDigit c = true := fun c hc => by
  rw [List.eq_of_mem_replicate hc]
  rfl

/-- The text of a number that is no integer: it has a fraction or an exponent. -/
inductive Spells : List Char → Prop where
  | intro {whole point fraction mark : List Char} {exponent : Option Int} (hwhole : Whole whole)
      (hpoint : Fraction point fraction) (hmark : Exponent mark exponent)
      (hparts : ¬ (fraction.isEmpty ∧ exponent.isNone)) : Spells (whole ++ (point ++ mark))

theorem Spells.of_point {text whole fraction : List Char} (htext : text = whole ++ '.' :: fraction)
    (hwhole : Whole whole) (hne : fraction ≠ []) (hds : ∀ d ∈ fraction, isDigit d = true) :
    Spells text := by
  have h : Spells (whole ++ ('.' :: fraction ++ [])) :=
    .intro hwhole (.digits hne hds) .none (by simpa using hne)
  rwa [List.append_nil, ← htext] at h

section Texts

variable {digits : String} {c : Char} {cs : List Char} (hdigits : digits.toList = c :: cs)
  (hzero : c ≠ '0') (hall : ∀ d ∈ c :: cs, isDigit d = true)

include hdigits hzero hall

theorem positional_spells (top : Int) : Spells (positional digits top).toList := by
  have hlength : digits.length = cs.length + 1 := by
    rw [← String.length_toList, hdigits, List.length_cons]
  obtain ⟨hc, hcs⟩ := List.forall_mem_cons.mp hall
  unfold positional
  dsimp only
  split
  · have htext : ("0." ++ zeros (-top - 1).toNat ++ digits).toList
        = ['0'] ++ '.' :: (List.replicate (-top - 1).toNat '0' ++ c :: cs) := by
      simp only [String.toList_append, toList_zeros, hdigits, List.append_assoc]
      rfl
    exact .of_point htext .zero (by simp) (List.forall_mem_append.mpr ⟨isDigit_zeros, hall⟩)
  · split
    · have htext : (digits ++ zeros (top.toNat + 1 - digits.length) ++ ".0").toList
          = c :: (cs ++ List.replicate (top.toNat + 1 - digits.length) '0') ++ ['.', '0'] := by
        simp only [String.toList_append, toList_zeros, hdigits]
        rfl
      exact .of_point htext (.digits hc hzero (List.forall_mem_append.mpr ⟨hcs, isDigit_zeros⟩))
        (by simp) (by simp [isDigit])
    · next hlong =>
      have hdrop : cs.drop top.toNat ≠ [] := by
        rw [Ne, List.drop_eq_nil_iff]
        omega
      have htext : (String.ofList (digits.toList.take (top.toNat + 1)) ++ "."
          ++ String.ofList (digits.toList.drop (top.toNat + 1))).toList
          = c :: cs.take top.toNat ++ '.' :: cs.drop top.toNat := by
        simp only [String.toList_append, String.toList_ofList, hdigits, List.append_assoc]
        rfl
      exact .of_point htext (.digits hc hzero fun d hd => hcs d (List.mem_of_mem_take hd)) hdrop
        fun d hd => hcs d (List.mem_of_mem_drop hd)

omit hdigits hzero hall in
/-- The digits of an exponent are at least two. -/
theorem power_digits (n : Nat) : ∃ ds : List Char, ds ≠ [] ∧ (∀ d ∈ ds, isDigit d = true) ∧
    (if (toString n).length < 2 then "0" ++ toString n else toString n).toList = ds := by
  have hn : (toString n).toList = Nat.toDigits 10 n := Nat.toList_repr
  split
  · refine ⟨'0' :: Nat.toDigits 10 n, List.cons_ne_nil _ _,
      List.forall_mem_cons.mpr ⟨rfl, isDigit_toDigits⟩, ?_⟩
    rw [String.toList_append, hn]
    rfl
  · obtain ⟨d, ds, hds, -⟩ := (whole_toDigits n).exists_cons
    exact ⟨Nat.toDigits 10 n, by rw [hds]; exact List.cons_ne_nil _ _, isDigit_toDigits, hn⟩

omit hdigits hzero hall in
theorem exponent_power (top : Int) : ∃ mark exponent, Exponent mark (some exponent) ∧
    "e".toList ++ ((if top < 0 then "-" else "+" : String).toList ++
      (if (toString top.natAbs).length < 2 then "0" ++ toString top.natAbs
        else toString top.natAbs).toList) = mark := by
  obtain ⟨ds, hne, hds, hpower⟩ := power_digits top.natAbs
  rw [hpower]
  split
  · exact ⟨_, _, .negative (.inl rfl) hne hds, rfl⟩
  · exact ⟨_, _, .positive (.inl rfl) (.inr rfl) hne hds, rfl⟩

theorem exponential_spells (top : Int) : Spells (exponential digits top).toList := by
  obtain ⟨hc, hcs⟩ := List.forall_mem_cons.mp hall
  obtain ⟨mark, exponent, hmark, htop⟩ := exponent_power top
  have hwhole : Whole [c] := .digits hc hzero (by simp)
  obtain ⟨point, hpoint, htext⟩ : ∃ point, Fraction point cs ∧
      (if (String.ofList cs).isEmpty then "" else "." ++ String.ofList cs : String).toList
        = point := by
    split
    · next hempty =>
      rw [String.isEmpty_iff, ← String.toList_inj, String.toList_ofList] at hempty
      exact ⟨[], hempty ▸ .none, rfl⟩
    · next hfull =>
      rw [String.isEmpty_iff, ← String.toList_inj, String.toList_ofList] at hfull
      refine ⟨'.' :: cs, .digits hfull hcs, ?_⟩
      simp only [String.toList_append, String.toList_ofList]
      rfl
  have hspells : Spells ([c] ++ (point ++ mark)) := .intro hwhole hpoint hmark (by simp)
  unfold exponential
  simp only [hdigits, List.drop_one, List.tail_cons, List.take_succ_cons, List.take_zero]
  rwa [String.toList_append, String.toList_append, String.toList_append, String.toList_append,
    String.toList_ofList, htext, List.append_assoc, List.append_assoc, List.append_assoc, htop]

end Texts

/-- **The text of a finite number** is its sign and digits with a point or an exponent. -/
theorem render_spells (negative : Bool) (mantissa : Nat) (exponent : Int) : ∃ text,
    ((Double.finite negative mantissa exponent).render .json).toList = minus negative ++ text ∧
      Spells text := by
  have hsign : (if negative then "-" else "" : String).toList = minus negative := by
    cases negative <;> rfl
  unfold render
  dsimp only
  split
  · refine ⟨['0', '.', '0'], ?_, .of_point rfl .zero (by simp) (by simp [isDigit])⟩
    rw [String.toList_append, hsign]
    rfl
  · next hm =>
    obtain ⟨c, cs, hcs, hc⟩ := head_toDigits (shortest_pos hm exponent)
    have hdigits : (toString (shortest mantissa exponent).digits).toList = c :: cs :=
      Nat.toList_repr.trans hcs
    have hall : ∀ d ∈ c :: cs, isDigit d = true := hcs ▸ isDigit_toDigits
    rw [String.toList_append, hsign]
    refine ⟨_, rfl, ?_⟩
    split
    · exact positional_spells hdigits hc hall _
    · exact exponential_spells hdigits hc hall _

end Double

/-- **A finite number that was written is read back** as a number with a point or an exponent. -/
theorem Json.readNumber?_render (negative : Bool) (mantissa : Nat) (exponent : Int) :
    ∃ x, ∀ {rest}, Ends rest →
      readNumber? (((Double.finite negative mantissa exponent).render .json).toList ++ rest)
        = some (.ok (.float x, rest)) := by
  obtain ⟨text, htext, hspells⟩ := Double.render_spells negative mantissa exponent
  cases hspells with
  | @intro whole point fraction mark power hwhole hpoint hmark hparts =>
    refine ⟨.ofDecimal negative (decimalNumber (whole ++ fraction))
      (power.getD 0 - fraction.length), fun hrest => ?_⟩
    rw [htext, List.append_assoc, List.append_assoc, List.append_assoc,
      readNumber?_append hwhole hpoint hmark hrest, numberOf, if_neg hparts]

end Attest

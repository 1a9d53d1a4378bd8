import Mathlib.Algebra.Group.Nat.Defs
import Mathlib.Data.List.TakeDrop
import Mathlib.Data.List.TakeWhile
import Attest.Json.Reader
import Attest.Proofs.Value.Writable

/-!
# Numerals

The texts of numbers, by their parts: a sign, digits before the point, a fraction and an exponent.
Each of the functions that take a part from a text takes what the grammar allows there, and leaves
what comes after it; and it takes nothing else. A number has no end of its own, so what comes after
it must not go on with it.

## Main definitions

* `Json.Ends` — a text that goes on with no number
* `Json.Whole`, `Json.Fraction`, `Json.Exponent` — the parts of a number
* `Json.Numeral` — the texts of numbers, and what they stand for

## Main results

* `Json.readNumber?_append`, `Json.readNumber?_eq_some` — a number is read from its parts, and from
  nothing else
* `Json.readNumber?_eq_ok` — a number that was read was read from a numeral
-/

namespace Attest

namespace Json

variable {text rest : List Char}

/-! ### The grammar -/

/-- The text does not go on with a number that stands before it. -/
def Ends (rest : List Char) : Prop :=
  ∀ c ∈ rest.head?, isDigit c = false ∧ c ≠ '.' ∧ c ≠ 'e' ∧ c ≠ 'E'

theorem ends_nil : Ends [] := nofun

theorem ends_cons {c : Char} (h : isDigit c = false ∧ c ≠ '.' ∧ c ≠ 'e' ∧ c ≠ 'E')
    (rest : List Char) : Ends (c :: rest) := by
  rintro _ ⟨⟩
  exact h

/-- The digits before a point: a zero alone, or digits that do not begin with one. -/
inductive Whole : List Char → Prop where
  | zero : Whole ['0']
  | digits {c : Char} {cs : List Char} (hc : isDigit c = true) (hzero : c ≠ '0')
      (hcs : ∀ d ∈ cs, isDigit d = true) : Whole (c :: cs)

theorem Whole.isDigit {ds : List Char} (h : Whole ds) : ∀ d ∈ ds, Json.isDigit d = true := by
  cases h with
  | zero => simp [Json.isDigit]
  | digits hc _ hcs => exact List.forall_mem_cons.mpr ⟨hc, hcs⟩

theorem Whole.exists_cons {ds : List Char} (h : Whole ds) :
    ∃ c cs, ds = c :: cs ∧ Json.isDigit c = true := by
  cases h with
  | zero => exact ⟨_, _, rfl, rfl⟩
  | digits hc => exact ⟨_, _, rfl, hc⟩

/-- The fraction of a number with its point, and its digits. -/
inductive Fraction : List Char → List Char → Prop where
  | none : Fraction [] []
  | digits {ds : List Char} (hne : ds ≠ []) (hds : ∀ d ∈ ds, isDigit d = true) :
      Fraction ('.' :: ds) ds

/-- The exponent of a number with its letter and sign, and what it stands for. -/
inductive Exponent : List Char → Option Int → Prop where
  | none : Exponent [] none
  | positive {mark : Char} {sign ds : List Char} (hmark : mark = 'e' ∨ mark = 'E')
      (hsign : sign = [] ∨ sign = ['+']) (hne : ds ≠ []) (hds : ∀ d ∈ ds, isDigit d = true) :
      Exponent (mark :: (sign ++ ds)) (some (decimalNumber ds))
  | negative {mark : Char} {ds : List Char} (hmark : mark = 'e' ∨ mark = 'E') (hne : ds ≠ [])
      (hds : ∀ d ∈ ds, isDigit d = true) :
      Exponent (mark :: '-' :: ds) (some (-decimalNumber ds))

/-- The sign of a negative number. -/
def minus (negative : Bool) : List Char := if negative then ['-'] else []

/-- The text of a number that stands for `± digits * 10 ^ power`. -/
inductive Numeral : List Char → Bool → Nat → Int → Prop where
  | intro {negative : Bool} {whole point fraction mark : List Char} {exponent : Option Int}
      (hwhole : Whole whole) (hfraction : Fraction point fraction)
      (hexponent : Exponent mark exponent) :
      Numeral (minus negative ++ (whole ++ (point ++ mark))) negative
        (decimalNumber (whole ++ fraction)) (exponent.getD 0 - fraction.length)

theorem decimalNumber_lt {cs : List Char} (h : ∀ c ∈ cs, isDigit c = true) :
    decimalNumber cs < 10 ^ cs.length := by
  have hfold : ∀ {cs : List Char}, (∀ c ∈ cs, isDigit c = true) → ∀ n,
      cs.foldl (fun n c => 10 * n + digitValue c) n < (n + 1) * 10 ^ cs.length := by
    intro cs
    induction cs with
    | nil => intro _ n; simp
    | cons c cs ih =>
      intro h n
      have hc : digitValue c ≤ 9 := by
        have hc := h c List.mem_cons_self
        simp only [isDigit, Bool.and_eq_true, decide_eq_true_eq] at hc
        have hle : c.toNat ≤ '9'.toNat := hc.2
        simp only [digitValue]
        have : '9'.toNat = 57 := rfl
        have : '0'.toNat = 48 := rfl
        omega
      refine Nat.lt_of_lt_of_le (ih (fun c hc => h c (List.mem_cons_of_mem _ hc)) _) ?_
      rw [List.length_cons, Nat.pow_succ, Nat.mul_comm (10 ^ cs.length) 10, ← Nat.mul_assoc]
      have hnext : 10 * n + digitValue c + 1 ≤ (n + 1) * 10 := by omega
      exact Nat.mul_le_mul_right _ hnext
  simpa [decimalNumber] using hfold h 0

/-! ### Taking a part -/

theorem span_digits {ds rest : List Char} (hds : ∀ d ∈ ds, isDigit d = true)
    (hrest : ∀ c ∈ rest.head?, isDigit c = false) : (ds ++ rest).span isDigit = (ds, rest) := by
  have hstop : rest.takeWhile isDigit = [] ∧ rest.dropWhile isDigit = rest := by
    cases rest with
    | nil => exact ⟨rfl, rfl⟩
    | cons c rest =>
      have hc : isDigit c = false := hrest c rfl
      simp [hc]
  rw [List.span_eq_takeWhile_dropWhile, List.takeWhile_append_of_pos hds,
    List.dropWhile_append_of_pos hds, hstop.1, hstop.2, List.append_nil]

theorem integerDigits_append {ds rest : List Char} (h : Whole ds)
    (hrest : ∀ c ∈ rest.head?, isDigit c = false) : integerDigits (ds ++ rest) = (ds, rest) := by
  have hspan := span_digits h.isDigit hrest
  cases h with
  | zero => rfl
  | digits hc hzero hcs =>
    unfold integerDigits
    split
    · next he => exact absurd (List.cons.inj he).1 hzero
    · exact hspan

theorem Fraction.head_append {point ds : List Char} (h : Fraction point ds)
    (hrest : ∀ c ∈ rest.head?, isDigit c = false) :
    ∀ c ∈ (point ++ rest).head?, isDigit c = false := by
  cases h with
  | none => exact hrest
  | digits =>
    rintro _ ⟨⟩
    rfl

theorem Exponent.head_append {mark : List Char} {exponent : Option Int} (h : Exponent mark exponent)
    (hrest : Ends rest) : ∀ c ∈ (mark ++ rest).head?, isDigit c = false ∧ c ≠ '.' := by
  cases h with
  | none => exact fun c hc => ⟨(hrest c hc).1, (hrest c hc).2.1⟩
  | positive hmark | negative hmark =>
    rintro _ ⟨⟩
    rcases hmark with rfl | rfl <;> decide

theorem Fraction.fractionDigits_append {point ds : List Char} (h : Fraction point ds)
    (hrest : ∀ c ∈ rest.head?, isDigit c = false ∧ c ≠ '.') :
    fractionDigits (point ++ rest) = (ds, rest) := by
  cases h with
  | none =>
    cases rest with
    | nil => rfl
    | cons c rest =>
      unfold fractionDigits
      split
      · next he => exact absurd (List.cons.inj he).1 (hrest c rfl).2
      · rfl
  | digits hne hds =>
    obtain ⟨d, ds, rfl⟩ := List.exists_cons_of_ne_nil hne
    exact (if_pos (hds d List.mem_cons_self)).trans (span_digits hds fun c hc => (hrest c hc).1)

theorem Exponent.exponentPart_append {mark : List Char} {exponent : Option Int}
    (h : Exponent mark exponent) (hrest : Ends rest) :
    exponentPart (mark ++ rest) = (exponent, rest) := by
  have hdigit : ∀ c ∈ rest.head?, isDigit c = false := fun c hc => (hrest c hc).1
  cases h with
  | none =>
    cases rest with
    | nil => rfl
    | cons c rest => exact if_neg (not_or.mpr (hrest c rfl).2.2)
  | positive hmark hsign hne hds =>
    obtain ⟨d, ds, rfl⟩ := List.exists_cons_of_ne_nil hne
    have hspan : (d :: (ds ++ rest)).span isDigit = (d :: ds, rest) := span_digits hds hdigit
    rcases hsign with rfl | rfl
    · have hminus : d ≠ '-' := ne_of_apply_ne isDigit (by rw [hds d List.mem_cons_self]; decide)
      have hplus : d ≠ '+' := ne_of_apply_ne isDigit (by rw [hds d List.mem_cons_self]; decide)
      simp only [exponentPart, List.cons_append, List.nil_append, if_pos hmark, List.cons.injEq,
        hminus, hplus, false_and, imp_self, implies_true, hspan, Int.one_mul]
    · simp only [exponentPart, List.cons_append, List.nil_append, if_pos hmark, hspan, Int.one_mul]
  | negative hmark hne hds =>
    obtain ⟨d, ds, rfl⟩ := List.exists_cons_of_ne_nil hne
    have hspan : (d :: (ds ++ rest)).span isDigit = (d :: ds, rest) := span_digits hds hdigit
    simp only [exponentPart, List.cons_append, if_pos hmark, hspan, Int.neg_mul, Int.one_mul]

/-! ### What was taken -/

theorem span_eq {p : Char → Bool} {ds : List Char} (h : text.span p = (ds, rest)) :
    text = ds ++ rest ∧ ∀ d ∈ ds, p d = true := by
  rw [List.span_eq_takeWhile_dropWhile] at h
  obtain ⟨rfl, rfl⟩ := Prod.mk.inj h
  exact ⟨(List.takeWhile_append_dropWhile).symm, fun d hd => List.mem_takeWhile_imp hd⟩

theorem integerDigits_eq {ds : List Char} (h : integerDigits text = (ds, rest)) (hne : ds ≠ []) :
    text = ds ++ rest ∧ Whole ds := by
  unfold integerDigits at h
  split at h
  · obtain ⟨rfl, rfl⟩ := Prod.mk.inj h
    exact ⟨rfl, .zero⟩
  · next hzero =>
    obtain ⟨rfl, hds⟩ := span_eq h
    obtain ⟨d, ds, rfl⟩ := List.exists_cons_of_ne_nil hne
    obtain ⟨hd, hds⟩ := List.forall_mem_cons.mp hds
    refine ⟨rfl, .digits hd ?_ hds⟩
    rintro rfl
    exact hzero _ rfl

theorem fractionDigits_eq {ds : List Char} (h : fractionDigits text = (ds, rest)) :
    ∃ point, text = point ++ rest ∧ Fraction point ds := by
  unfold fractionDigits at h
  split at h
  · next c more =>
    split at h
    · next hc =>
      obtain ⟨hspan, hds⟩ := span_eq h
      refine ⟨'.' :: ds, by rw [hspan]; rfl, .digits ?_ hds⟩
      rintro rfl
      rw [List.span_eq_takeWhile_dropWhile, List.takeWhile_cons_of_pos hc] at h
      cases (Prod.mk.inj h).1
    · obtain ⟨rfl, rfl⟩ := Prod.mk.inj h
      exact ⟨[], rfl, .none⟩
  · obtain ⟨rfl, rfl⟩ := Prod.mk.inj h
    exact ⟨[], rfl, .none⟩

theorem exponentPart_eq {exponent : Option Int} (h : exponentPart text = (exponent, rest)) :
    ∃ mark, text = mark ++ rest ∧ Exponent mark exponent := by
  unfold exponentPart at h
  split at h
  · next c more =>
    split at h
    · next hc =>
      split at h
      next sign digits hsign =>
      split at h
      · obtain ⟨rfl, rfl⟩ := Prod.mk.inj h
        exact ⟨[], rfl, .none⟩
      · next ds after hne hspan =>
        obtain ⟨rfl, rfl⟩ := Prod.mk.inj h
        obtain ⟨rfl, hds⟩ := span_eq hspan
        split at hsign
        · obtain ⟨rfl, rfl⟩ := Prod.mk.inj hsign
          rw [Int.neg_mul, Int.one_mul]
          exact ⟨c :: '-' :: ds, rfl, .negative hc hne hds⟩
        · obtain ⟨rfl, rfl⟩ := Prod.mk.inj hsign
          rw [Int.one_mul]
          exact ⟨c :: '+' :: ds, rfl, Exponent.positive hc (.inr rfl) hne hds⟩
        · obtain ⟨rfl, rfl⟩ := Prod.mk.inj hsign
          rw [Int.one_mul]
          exact ⟨c :: ds, rfl, Exponent.positive hc (.inl rfl) hne hds⟩
    · obtain ⟨rfl, rfl⟩ := Prod.mk.inj h
      exact ⟨[], rfl, .none⟩
  · obtain ⟨rfl, rfl⟩ := Prod.mk.inj h
    exact ⟨[], rfl, .none⟩

/-! ### Numbers -/

/-- What the reader makes of the parts of a number. -/
def numberOf (negative : Bool) (whole fraction : List Char) (exponent : Option Int)
    (rest : List Char) : Reading Value :=
  if fraction.isEmpty ∧ exponent.isNone then
    if digitLimit < whole.length then .error (.digits whole.length)
    else
      let n : Int := decimalNumber whole
      .ok (.int (if negative then -n else n), rest)
  else
    .ok (.float (.ofDecimal negative (decimalNumber (whole ++ fraction))
      (exponent.getD 0 - fraction.length)), rest)

section Parts

variable {negative : Bool} {whole point fraction mark : List Char} {exponent : Option Int}

/-- **A number is read from its parts**, if the text behind it does not go on with it. -/
theorem readNumber?_append (hwhole : Whole whole) (hpoint : Fraction point fraction)
    (hmark : Exponent mark exponent) (hrest : Ends rest) :
    readNumber? (minus negative ++ (whole ++ (point ++ (mark ++ rest))))
      = some (numberOf negative whole fraction exponent rest) := by
  have hexponent := hmark.exponentPart_append hrest
  have hfraction := hpoint.fractionDigits_append (hmark.head_append hrest)
  have hdigits := integerDigits_append hwhole
    (hpoint.head_append fun c hc => (hmark.head_append hrest c hc).1)
  obtain ⟨c, cs, rfl, hc⟩ := hwhole.exists_cons
  have hsign : c ≠ '-' := by
    rintro rfl
    cases hc
  unfold readNumber? numberOf
  split
  next sign unsigned hsplit =>
  have hunsigned : sign = negative ∧ unsigned = c :: cs ++ (point ++ (mark ++ rest)) := by
    cases negative with
    | true =>
      cases hsplit
      exact ⟨rfl, rfl⟩
    | false =>
      split at hsplit
      · next he => exact absurd (List.cons.inj he).1 hsign
      · cases hsplit
        exact ⟨rfl, rfl⟩
  obtain ⟨rfl, rfl⟩ := hunsigned
  simp only [hdigits, hfraction, hexponent]
  split
  · split <;> rfl
  · rfl

/-- **A number that was read was read from its parts.** -/
theorem readNumber?_eq_some {r : Reading Value} (h : readNumber? text = some r) :
    ∃ negative whole point fraction mark exponent rest, Whole whole ∧ Fraction point fraction ∧
      Exponent mark exponent ∧ text = minus negative ++ (whole ++ (point ++ (mark ++ rest))) ∧
      r = numberOf negative whole fraction exponent rest := by
  unfold readNumber? at h
  split at h
  next negative unsigned hsign =>
  have htext : text = minus negative ++ unsigned := by
    split at hsign <;>
    · obtain ⟨rfl, rfl⟩ := Prod.mk.inj hsign
      rfl
  split at h
  · cases h
  · next whole afterWhole hne hdigits =>
    obtain ⟨rfl, hwhole⟩ := integerDigits_eq hdigits hne
    split at h
    next fraction afterFraction hfraction =>
    obtain ⟨point, rfl, hpoint⟩ := fractionDigits_eq hfraction
    split at h
    next exponent rest hexponent =>
    obtain ⟨mark, rfl, hmark⟩ := exponentPart_eq hexponent
    refine ⟨negative, whole, point, fraction, mark, exponent, rest, hwhole, hpoint, hmark, htext, ?_⟩
    unfold numberOf
    split at h
    · next hparts =>
      rw [if_pos hparts]
      split at h
      · next hlimit => rw [if_pos hlimit, ← Option.some.inj h]
      · next hlimit => rw [if_neg hlimit, ← Option.some.inj h]
    · next hparts => rw [if_neg hparts, ← Option.some.inj h]

theorem numberOf_eq_ok {last : List Char} {v : Value} (hwhole : Whole whole)
    (h : numberOf negative whole fraction exponent last = .ok (v, rest)) :
    last = rest ∧ ((∃ n, v = .int n ∧ n.natAbs < digitBound) ∨
      v = .float (.ofDecimal negative (decimalNumber (whole ++ fraction))
        (exponent.getD 0 - fraction.length))) := by
  unfold numberOf at h
  split at h
  · split at h
    · cases h
    · next hlength =>
      obtain ⟨rfl, rfl⟩ := Prod.mk.inj (Except.ok.inj h)
      have hlt : decimalNumber whole < digitBound := by
        unfold digitBound
        refine Nat.lt_of_lt_of_le (decimalNumber_lt hwhole.isDigit) ?_
        exact Nat.pow_le_pow_right (by decide) (Nat.not_lt.mp hlength)
      refine ⟨rfl, .inl ⟨_, rfl, ?_⟩⟩
      split <;> omega
  · obtain ⟨rfl, rfl⟩ := Prod.mk.inj (Except.ok.inj h)
    exact ⟨rfl, .inr rfl⟩

end Parts

/-- **A number was read from a numeral**: an integer within the limit, or else the rounding of what
the numeral stands for. -/
theorem readNumber?_eq_ok {v : Value} (h : readNumber? text = some (.ok (v, rest))) :
    ∃ literal negative digits power, text = literal ++ rest ∧
      Numeral literal negative digits power ∧
      ((∃ n, v = .int n ∧ n.natAbs < digitBound) ∨
        v = .float (.ofDecimal negative digits power)) := by
  obtain ⟨negative, whole, point, fraction, mark, exponent, last, hwhole, hpoint, hmark, rfl, hr⟩ :=
    readNumber?_eq_some h
  obtain ⟨rfl, hv⟩ := numberOf_eq_ok hwhole hr.symm
  refine ⟨_, _, _, _, ?_, .intro hwhole hpoint hmark, hv⟩
  simp only [List.append_assoc]

end Json

end Attest

import Mathlib.Data.List.Forall2
import Attest.Chain.Union
import Attest.Path
import Attest.Proofs.Value.Writable

/-!
# Values that a chain cannot tell apart

What a chain reads of a candidate is little: its kind and size, the parts that paths lead to,
whether it equals a given value, whether it can be shown, and whether it is the same candidate as
another one. A relation between values that respects these few is a *likeness*, and whatever is
computed from like values is alike again.

The relation is a parameter because the runs that have to be compared differ in different ways.
Equality is a likeness, and so are the relation of what stands at one place of two documents, and
equality of what is part of a given document.

## Main definitions

* `Agree` — faults of one class, or related results
* `Alike` — values of one shape with related parts
* `Likeness` — relations that a chain respects

## Main results

* `likeness_eq` — equality is a likeness, whatever the values compared with
* `Likeness.walk` — a path leads from like values to like values
* `Likeness.unite` — like groups of candidates have like unions
-/

namespace Attest

/-! ### Computations with related results -/

/-- Two computations that end in faults of one class, or in related results. -/
inductive Agree {α β : Type} (rel : α → β → Prop) : Except Fault α → Except Fault β → Prop where
  | ok {a : α} {b : β} (h : rel a b) : Agree rel (.ok a) (.ok b)
  | error {fault fault' : Fault} (h : fault.label = fault'.label) :
      Agree rel (.error fault) (.error fault')

section Agree

variable {α β γ δ : Type} {rel : α → β → Prop} {rel' : γ → δ → Prop} {x : Except Fault α}
  {y : Except Fault β}

/-- **Computations that agree, one after the other.** -/
theorem Agree.bind {g : α → Except Fault γ} {h : β → Except Fault δ} (hxy : Agree rel x y)
    (hgh : ∀ a b, rel a b → Agree rel' (g a) (h b)) : Agree rel' (x >>= g) (y >>= h) := by
  cases hxy with
  | ok hab => exact hgh _ _ hab
  | error hlabel => exact .error hlabel

/-- One computation on both sides, and what agrees whatever it gives. -/
theorem agree_after {g : α → Except Fault γ} {h : α → Except Fault δ} (x : Except Fault α)
    (hgh : ∀ a, Agree rel' (g a) (h a)) : Agree rel' (x >>= g) (x >>= h) := by
  cases x with
  | ok a => exact hgh a
  | error fault => exact .error rfl

theorem Agree.map {g : α → γ} {h : β → δ} (hxy : Agree rel x y)
    (hgh : ∀ a b, rel a b → rel' (g a) (h b)) : Agree rel' (x.map g) (y.map h) := by
  cases hxy with
  | ok hab => exact .ok (hgh _ _ hab)
  | error hlabel => exact .error hlabel

theorem agree_mapM {α' β' : Type} {R : α' → β' → Prop} {g : α' → Except Fault γ}
    {h : β' → Except Fault δ} (hgh : ∀ a b, R a b → Agree rel' (g a) (h b)) :
    ∀ {l : List α'} {l' : List β'}, List.Forall₂ R l l' →
      Agree (List.Forall₂ rel') (l.mapM g) (l'.mapM h)
  | _, _, .nil => .ok .nil
  | _, _, .cons hab hrest => by
    rw [List.mapM_cons, List.mapM_cons]
    refine (hgh _ _ hab).bind fun c d hcd => ?_
    exact (agree_mapM hgh hrest).bind fun cs ds hcds => .ok (.cons hcd hcds)

end Agree

theorem forall₂_getElem? {α β : Type} {rel : α → β → Prop} {l : List α} {l' : List β}
    (h : List.Forall₂ rel l l') (n : Nat) : Option.Rel rel l[n]? l'[n]? := by
  induction h generalizing n with
  | nil => exact .none
  | cons hab _ ih =>
    cases n with
    | zero => exact .some hab
    | succ n => exact ih n

/-! ### Texts -/

/-- Two values that can be shown, or neither, whatever the limits. -/
theorem agree_excerpt {v w : Value} (h : v.Legible ↔ w.Legible) (limit limit' : Int) :
    Agree (fun _ _ => True) (v.excerpt limit) (w.excerpt limit') := by
  have hboth : Succeeds (v.excerpt limit) ↔ Succeeds (w.excerpt limit') := by
    rw [Value.succeeds_excerpt_iff, Value.succeeds_excerpt_iff, h]
  cases hv : v.excerpt limit with
  | ok text =>
    obtain ⟨text', hw⟩ := hboth.mp ⟨text, hv⟩
    rw [hw]
    exact .ok trivial
  | error fault =>
    cases hw : w.excerpt limit' with
    | ok text' =>
      obtain ⟨text, hv'⟩ := hboth.mpr ⟨text', hw⟩
      rw [hv] at hv'
      cases hv'
    | error fault' =>
      rw [Value.excerpt_error hv, Value.excerpt_error hw]
      exact .error rfl

/-! ### Likenesses -/

/-- A value that is no array, object or string. -/
def Value.Atomic : Value → Prop
  | .array .. | .object .. | .str _ => False
  | _ => True

/-- Values of one shape: arrays and objects with related parts, one and the same string, or atoms
of one kind. -/
inductive Alike (R : Value → Value → Prop) : Value → Value → Prop where
  | array {node node' : NodeId} {form form' : ArrayForm} {items items' : List Value}
      (h : List.Forall₂ R items items') :
      Alike R (.array node form items) (.array node' form' items')
  | object {node node' : NodeId} {form form' : ObjectForm} {entries entries' : Entries}
      (hlength : entries.length = entries'.length)
      (h : ∀ key, Option.Rel R (Value.lookup key entries) (Value.lookup key entries')) :
      Alike R (.object node form entries) (.object node' form' entries')
  | text (s : String) : Alike R (.str s) (.str s)
  | atom {v w : Value} (hv : v.Atomic) (hw : w.Atomic) (hkind : v.kind = w.kind) : Alike R v w

/-- A relation that a chain respects, if what it compares candidates with is `known`. -/
structure Likeness (R : Value → Value → Prop) (known : Value → Prop) : Prop where
  alike : ∀ {v w}, R v w → Alike R v w
  equals : ∀ {v w e}, R v w → known e → Value.equals v e = Value.equals w e
  legible : ∀ {v w}, R v w → (v.Legible ↔ w.Legible)
  /-- Two candidates of one run are one iff their counterparts in the other are. -/
  same : ∀ {v w v' w'}, R v w → R v' w' → v.sameCandidate v' = w.sameCandidate w'

theorem optionRel_refl {α : Type} {rel : α → α → Prop} {x : Option α} (h : ∀ a ∈ x, rel a a) :
    Option.Rel rel x x := by
  cases x with
  | none => exact .none
  | some a => exact .some (h a rfl)

/-- A value is of the shape of itself if its parts are related to themselves. -/
theorem alike_refl {R : Value → Value → Prop} {v : Value}
    (items : ∀ node form items, v = .array node form items → ∀ x ∈ items, R x x)
    (entries : ∀ node form entries, v = .object node form entries →
      ∀ key x, Value.lookup key entries = some x → R x x) : Alike R v v := by
  cases v with
  | array node form xs => exact .array (List.forall₂_same.mpr (items _ _ _ rfl))
  | object node form es =>
    exact .object rfl fun key => optionRel_refl fun x hx => entries _ _ _ rfl key x hx
  | str s => exact .text s
  | _ => exact .atom trivial trivial rfl

/-- **Equality is a likeness.** -/
theorem likeness_eq : Likeness Eq fun _ => True where
  alike := by
    rintro v _ rfl
    exact alike_refl (fun _ _ _ _ _ _ => rfl) fun _ _ _ _ _ _ _ => rfl
  equals := by
    rintro v _ e rfl _
    rfl
  legible := by
    rintro v _ rfl
    rfl
  same := by
    rintro v _ v' _ rfl rfl
    rfl

section

variable {R : Value → Value → Prop} {known : Value → Prop} {v w : Value}

theorem Alike.kind (h : Alike R v w) : v.kind = w.kind := by
  cases h with
  | array | object | text => rfl
  | atom _ _ hkind => exact hkind

theorem Alike.size (h : Alike R v w) : v.size = w.size := by
  cases h with
  | array h => exact congrArg (fun n => Except.ok (some n)) h.length_eq
  | object hlength => exact congrArg (fun n => Except.ok (some n)) hlength
  | text s => rfl
  | atom hv hw hkind =>
    have hsize : ∀ {x : Value}, x.Atomic → x.size = x.kind.map fun _ => none := by
      intro x hx
      cases x with
      | array | object | str => exact hx.elim
      | _ => rfl
    rw [hsize hv, hsize hw, hkind]

/-- Values of one shape are both nodes, or neither is. -/
theorem Alike.node? (h : Alike R v w) : Option.Rel (fun _ _ => True) v.node? w.node? := by
  cases h with
  | array | object => exact .some trivial
  | text => exact .none
  | atom hv hw =>
    have hnone : ∀ {x : Value}, x.Atomic → x.node? = none := by
      intro x hx
      cases x with
      | array | object | str => exact hx.elim
      | _ => rfl
    rw [hnone hv, hnone hw]
    exact .none

variable (hR : Likeness R known)

include hR

theorem Likeness.excerpt (h : R v w) (limit limit' : Int) :
    Agree (fun _ _ => True) (v.excerpt limit) (w.excerpt limit') :=
  agree_excerpt (hR.legible h) limit limit'

/-! ### Paths -/

omit hR in
theorem elementAt?_like {items items' : List Value} (h : List.Forall₂ R items items')
    (index : Int) : Option.Rel R (Path.elementAt? items index) (Path.elementAt? items' index) := by
  unfold Path.elementAt?
  rw [h.length_eq]
  dsimp only
  split
  all_goals split
  all_goals first | exact forall₂_getElem? h _ | exact .none

theorem Likeness.descend (h : R v w) (segment : List Char) :
    Agree (Option.Rel R) (Path.descend v segment) (Path.descend w segment) := by
  cases hR.alike h with
  | array hitems =>
    simp only [Path.descend]
    cases Path.index? segment with
    | none => exact .ok .none
    | some index =>
      cases index with
      | ok i => exact .ok (elementAt?_like hitems i)
      | error fault => exact .error rfl
  | object _ hat => exact .ok (hat (.str (String.ofList segment)))
  | text s => exact .ok .none
  | atom hv hw _ =>
    have hnone : ∀ {x : Value}, x.Atomic → Path.descend x segment = .ok none := by
      intro x hx
      cases x with
      | array | object => exact hx.elim
      | _ => rfl
    rw [hnone hv, hnone hw]
    exact .ok .none

/-- **A path leads from like values to like values.** -/
theorem Likeness.walk : ∀ {segments : List (List Char)} {v w : Value}, R v w →
    Agree (Option.Rel R) (Path.walk v segments) (Path.walk w segments)
  | [], _, _, h => .ok (.some h)
  | segment :: rest, _, _, h => by
    rw [Path.walk, Path.walk]
    refine (hR.descend h segment).bind fun next next' hnext => ?_
    cases hnext with
    | none => exact .ok .none
    | some hnext => exact Likeness.walk hnext

/-! ### Unions -/

theorem Likeness.seenBefore (h : R v w) : ∀ {vs ws : List Value}, List.Forall₂ R vs ws →
    seenBefore v vs = seenBefore w ws
  | _, _, .nil => rfl
  | _, _, .cons hab hrest => by
    rw [Attest.seenBefore, Attest.seenBefore, hR.same h hab, Likeness.seenBefore h hrest]

theorem Likeness.uniteFrom : ∀ {vs ws seen seen' : List Value}, List.Forall₂ R seen seen' →
    List.Forall₂ R vs ws → Agree (List.Forall₂ R) (uniteFrom seen vs) (uniteFrom seen' ws)
  | _, _, _, _, hseen, .nil => .ok hseen
  | _, _, _, _, hseen, .cons hab hrest => by
    rw [Attest.uniteFrom, Attest.uniteFrom, hR.seenBefore hab hseen]
    refine agree_after _ fun found => ?_
    cases found with
    | true => exact Likeness.uniteFrom hseen hrest
    | false => exact Likeness.uniteFrom (List.rel_append hseen (.cons hab .nil)) hrest

/-- **Like groups of candidates have like unions.** -/
theorem Likeness.unite {groups groups' : List (List Value)}
    (h : List.Forall₂ (List.Forall₂ R) groups groups') :
    Agree (List.Forall₂ R) (unite groups) (unite groups') :=
  hR.uniteFrom .nil (List.rel_flatten h)

end

end Attest

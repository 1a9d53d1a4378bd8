import Attest.Proofs.Chain.Agreement
import Attest.Proofs.Value.Position

/-!
# Equal documents

Two documents may be equal and yet be far from the same: the keys of objects in another order, an
integer where the other has a float, a tuple where the other has a list. Chains on them go through
different values, with different nodes, and the union of alternatives puts candidates together by
their nodes. Still nothing that a chain reports tells such documents apart.

What stands at one position of both documents is alike in every way that counts, and this is the
likeness under which the two runs agree. A node is recognised by its position, so two candidates
are one in the first run exactly if their counterparts are in the second; that is where a document
with a shared node would differ from one without. Queries are left out, since a star gives values
in the order of the keys, and predicates since they may look at that order themselves.

## Main definitions

* `Value.Counterparts` — what stands at one position of two documents
* `Operation.Extensional` — operations that go by equality

## Main results

* `Value.likeness_counterparts` — counterparts in equal documents are alike
* `Family.equal_documents_indiscernible` — no calls tell equal documents apart
-/

namespace Attest

namespace Value

/-- What stands at one position of two documents. -/
def Counterparts (d d' v w : Value) : Prop := ∃ p, d.at? p = some v ∧ d'.at? p = some w

variable {d d' v w : Value}

theorem counterparts_root (d d' : Value) : Counterparts d d' d d' := ⟨[], rfl, rfl⟩

theorem Counterparts.part {hop : Hop} {a b : Value} (h : Counterparts d d' v w)
    (ha : v.part? hop = some a) (hb : w.part? hop = some b) : Counterparts d d' a b := by
  obtain ⟨p, hv, hw⟩ := h
  exact ⟨p ++ [hop], (at?_append_singleton hv).trans ha, (at?_append_singleton hw).trans hb⟩

/-- Within one unshared document nodes are one iff they stand at one position. -/
theorem Unshared.node_eq_iff (hd : d.Unshared) {p q : List Hop} {x y : NodeId}
    (hv : d.at? p = some v) (hw : d.at? q = some w) (hx : v.node? = some x)
    (hy : w.node? = some y) : x = y ↔ p = q := by
  constructor
  · rintro rfl
    exact hd p q v w x hv hw hx hy
  · rintro rfl
    obtain rfl := Option.some.inj (hv.symm.trans hw)
    exact Option.some.inj (hx.symm.trans hy)

section

variable (hd : d.WellFormed) (hd' : d'.WellFormed) (hequal : d.content = d'.content)

include hd hd' hequal

theorem Counterparts.content_eq (h : Counterparts d d' v w) : v.content = w.content := by
  obtain ⟨p, hv, hw⟩ := h
  have hcontent : (d.at? p).map content = (d'.at? p).map content := content_at? hd hd' hequal
  rw [hv, hw] at hcontent
  exact Option.some.inj hcontent

omit hequal in
theorem Counterparts.wellFormed (h : Counterparts d d' v w) : v.WellFormed ∧ w.WellFormed := by
  obtain ⟨p, hv, hw⟩ := h
  exact ⟨hd.at? hv, hd'.at? hw⟩

/-- Parts that have counterparts in one value have them in the other. -/
theorem Counterparts.optionRel (h : Counterparts d d' v w) (hop : Hop) :
    Option.Rel (Counterparts d d') (v.part? hop) (w.part? hop) := by
  obtain ⟨hv, hw⟩ := h.wellFormed hd hd'
  have hpart := content_part? hv hw (h.content_eq hd hd' hequal) hop
  cases ha : v.part? hop with
  | none =>
    rw [ha] at hpart
    rw [Option.map_eq_none_iff.mp hpart.symm]
    exact .none
  | some a =>
    rw [ha] at hpart
    obtain ⟨b, hb, _⟩ := Option.map_eq_some_iff.mp hpart.symm
    rw [hb]
    exact .some (h.part ha hb)

theorem Counterparts.alike (h : Counterparts d d' v w) : Alike (Counterparts d d') v w := by
  obtain ⟨hv, hw⟩ := h.wellFormed hd hd'
  have hcontent := h.content_eq hd hd' hequal
  have hkind : v.kind = w.kind := by
    rw [kind_of_wellFormed hv, kind_of_wellFormed hw, hcontent]
  cases v with
  | array node form items =>
    cases w with
    | array node' form' items' =>
      have hlength : items.length = items'.length := by
        rw [← contents_length, Content.items.inj hcontent, contents_length]
      refine .array (List.forall₂_iff_get.mpr ⟨hlength, fun i hi hi' => ?_⟩)
      have ha : (array node form items).part? (.index i) = some items[i] :=
        List.getElem?_eq_getElem hi
      exact h.part ha (List.getElem?_eq_getElem hi')
    | set | bytes | date | timestamp | pattern | missing => exact hw.elim
    | _ => cases hkind
  | object node form entries =>
    cases w with
    | object node' form' entries' =>
      have hkeys := (contentAt_eq_iff hv.2 hw.2 hv.1 hw.1).mp (Content.fields.inj hcontent)
      refine .object ((sameKeySet_iff hv.2).mp hkeys.1).1 fun key => ?_
      by_cases hkey : ∃ s, key = .str s
      · obtain ⟨s, rfl⟩ := hkey
        exact h.optionRel hd hd' hequal (.key s)
      · have hne (s : String) : key ≠ .str s := fun hs => hkey ⟨s, hs⟩
        rw [lookup_of_ne_str hne hv.2.keys, lookup_of_ne_str hne hw.2.keys]
        exact .none
    | set | bytes | date | timestamp | pattern | missing => exact hw.elim
    | _ => cases hkind
  | str s =>
    cases w with
    | str t =>
      rw [Content.text.inj hcontent]
      exact .text t
    | set | bytes | date | timestamp | pattern | missing => exact hw.elim
    | _ => cases hkind
  | set | bytes | date | timestamp | pattern | missing => exact hv.elim
  | null | bool | int | float =>
    refine .atom trivial ?_ hkind
    cases w with
    | array | object | str => cases hkind
    | _ => trivial

omit hequal in
/-- Counterparts equal the same well-formed values. -/
theorem Counterparts.equals {e : Value} (hcontent : v.content = w.content)
    (h : Counterparts d d' v w) (he : e.WellFormed) : Value.equals v e = Value.equals w e := by
  obtain ⟨hv, hw⟩ := h.wellFormed hd hd'
  obtain ⟨r, hr, hre⟩ := equals_iff_content_eq hv he
  obtain ⟨t, ht, hte⟩ := equals_iff_content_eq hw he
  rw [hr, ht, Except.ok.injEq, Bool.eq_iff_iff, hre, hte, hcontent]

/-- **Nodes are one in one document iff their counterparts are in the other.** -/
theorem Counterparts.sameCandidate (hu : d.Unshared) (hu' : d'.Unshared) {v' w' : Value}
    (h : Counterparts d d' v w) (h' : Counterparts d d' v' w') :
    v.sameCandidate v' = w.sameCandidate w' := by
  have hnode := (h.alike hd hd' hequal).node?
  have hnode' := (h'.alike hd hd' hequal).node?
  rw [Value.sameCandidate, Value.sameCandidate]
  generalize hx : v.node? = x at hnode ⊢
  generalize hy : w.node? = y at hnode ⊢
  generalize hx' : v'.node? = x' at hnode' ⊢
  generalize hy' : w'.node? = y' at hnode' ⊢
  cases hnode with
  | none =>
    cases hnode' with
    | none =>
      obtain ⟨_, hw⟩ := h.wellFormed hd hd'
      obtain ⟨hv', hw'⟩ := h'.wellFormed hd hd'
      calc Value.equals v v' = Value.equals w v' :=
            h.equals hd hd' (h.content_eq hd hd' hequal) hv'
        _ = Value.equals v' w := equals_comm hw hv'
        _ = Value.equals w' w := h'.equals hd hd' (h'.content_eq hd hd' hequal) hw
        _ = Value.equals w w' := equals_comm hw' hw
    | some => rfl
  | @some x y =>
    cases hnode' with
    | none => rfl
    | @some x' y' =>
      obtain ⟨p, hv, hw⟩ := h
      obtain ⟨q, hv', hw'⟩ := h'
      have hiff : x = x' ↔ y = y' :=
        (hu.node_eq_iff hv hv' hx hx').trans (hu'.node_eq_iff hw hw' hy hy').symm
      rw [Except.ok.injEq, Bool.eq_iff_iff, beq_iff_eq, beq_iff_eq]
      exact hiff

/-- **Counterparts in equal documents are alike,** if neither document has a shared node. -/
theorem likeness_counterparts (hu : d.Unshared) (hu' : d'.Unshared) :
    Likeness (Counterparts d d') WellFormed where
  alike h := h.alike hd hd' hequal
  equals h he := h.equals hd hd' (h.content_eq hd hd' hequal) he
  legible h := by
    obtain ⟨hv, hw⟩ := h.wellFormed hd hd'
    have hcontent := h.content_eq hd hd' hequal
    exact ⟨Legible.of_content_eq hv hw hcontent, Legible.of_content_eq hw hv hcontent.symm⟩
  same h h' := h.sameCandidate hd hd' hequal hu hu' h'

end

end Value

/-! ### Calls -/

/-- An operation that goes by equality: it compares candidates with well-formed values, and neither
queries nor predicates see them. -/
def Operation.Extensional : Operation → Prop
  | .select _ _ | .mustSatisfy _ _ => False
  | .containing _ expected | .hasElement expected | .mustBe expected | .mustNotBe expected =>
    expected.WellFormed
  | .matching criteria => ∀ entry ∈ criteria, entry.2.WellFormed
  | .mustContain _ expected | .mustNotContain _ expected => ∀ v ∈ expected, v.WellFormed
  | _ => True

/-- A call that queues an extensional operation, or none. -/
def Call.Extensional : Call → Prop
  | .queue operation => operation.Extensional
  | _ => True

theorem Call.Extensional.fits {c : Call} (h : c.Extensional) (R : Value → Value → Prop) :
    c.Fits R Value.WellFormed := by
  cases c with
  | queue operation =>
    cases operation with
    | select | mustSatisfy => exact h.elim
    | _ => exact h
  | _ => trivial

namespace Family

/-- **No calls tell equal documents apart.** Let two documents be equal and well-formed, neither
with a node at two positions. Whatever extensional calls are strung together on chains on them,
nested blocks and finalizers included, each is answered alike, every step at every level has the
same verdict, and every chain is left with as many candidates, which are equal one by one. -/
theorem equal_documents_indiscernible {d d' : Document} {calls : List Call}
    (hvalid : d.isValid = d'.isValid) (hd : d.root.WellFormed) (hd' : d'.root.WellFormed)
    (hu : d.root.Unshared) (hu' : d'.root.Unshared)
    (hequal : Value.equals d.root d'.root = .ok true) (hcalls : ∀ c ∈ calls, c.Extensional)
    (description : String) (limit : Int) (raising : Bool) :
    let p := (start d description limit raising).strung 0 calls
    let q := (start d' description limit raising).strung 0 calls
    List.Forall₂ (Agree Reply.Agrees) p.2 q.2 ∧ p.1.SameVerdicts q.1
      ∧ List.Forall₂ (fun m n : Member =>
          List.Forall₂ (fun v w => Value.equals v w = .ok true) m.candidates n.candidates)
        p.1.members q.1.members := by
  intro p q
  have hcontent := (Value.equals_eq_true_iff hd hd').mp hequal
  have hlike := Value.likeness_counterparts hd hd' hcontent hu hu'
  have hstart : (start d description limit raising).Agrees (Value.Counterparts d.root d'.root)
      (start d' description limit raising) :=
    agrees_start d description description limit limit raising
      (Value.counterparts_root d.root d'.root) hvalid
  obtain ⟨hfamily, hreplies⟩ : p.1.Agrees (Value.Counterparts d.root d'.root) q.1
      ∧ List.Forall₂ (Agree Reply.Agrees) p.2 q.2 :=
    hstart.strung hlike fun c hc => (hcalls c hc).fits _
  refine ⟨hreplies, hfamily.sameVerdicts, hfamily.members.imp fun m n hm => ?_⟩
  refine hm.candidates.imp fun v w hvw => ?_
  obtain ⟨hv, hw⟩ := hvw.wellFormed hd hd'
  exact (Value.equals_eq_true_iff hv hw).mpr (hvw.content_eq hd hd' hcontent)

/-- Two alternatives that come to one node, in documents whose keys are in different order and
where a list and an integer stand for a tuple and a float. -/
theorem equal_documents_indiscernible_reordered :
    let calls : List Call :=
      [.openBlock, .queue (.atPath (.str "/a")), .nextBranch, .queue (.atPath (.str "a")),
        .closeBlock, .queue (.hasElement (.int 1)), .finish .exactly (.int 1)]
    let d := Document.ofValue
      (.object 1 .plain [(.str "a", .array 2 .list [.int 1]), (.str "b", .null)])
    let d' := Document.ofValue
      (.object 7 .view [(.str "b", .null),
        (.str "a", .array 9 .tuple [.float (.finite false (2 ^ 52) (-52))])])
    ((start d "json document" 100 true).strung 0 calls).1.SameVerdicts
      ((start d' "json document" 100 true).strung 0 calls).1 := by
  intro calls d d'
  have hd : d.root.WellFormed := by
    simp [d, Document.ofValue, Value.WellFormed, Value.WellFormedEntries, Value.WellFormedItems]
  have hd' : d'.root.WellFormed := by
    simp [d', Document.ofValue, Value.WellFormed, Value.WellFormedEntries, Value.WellFormedItems,
      Double.IsNumber, Double.mantissaBound, Double.minExponent, Double.maxExponent]
  have hu : d.root.Unshared := Value.unshared_of_nodup (by decide)
  have hu' : d'.root.Unshared := Value.unshared_of_nodup (by decide)
  have hequal : Value.equals d.root d'.root = .ok true := by decide +kernel
  have hcalls : ∀ c ∈ calls, c.Extensional := by
    simp [calls, Call.Extensional, Operation.Extensional, Value.WellFormed]
  have hvalid : d.isValid = d'.isValid := rfl
  exact (equal_documents_indiscernible hvalid hd hd' hu hu' hequal hcalls "json document" 100
    true).2.1

end Family

end Attest

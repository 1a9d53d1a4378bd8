import Attest.Proofs.Chain.Agreement
import Attest.Proofs.Query.Matches

/-!
# Candidates are parts of the document

Selectors, filters and the union of alternatives only ever hand on what they were given, or go down
from it, so a chain never comes to hold a value that is not in its document. Neither what candidates
are compared with nor what an earlier run left can get in.

This is an invariant of one run, but it needs no proof of its own along the evaluator: a run that
agrees with itself under *equality of parts of the document* is one whose candidates are such parts.
What has to be shown is that this equality is a likeness, which comes down to parts of parts being
parts. The same goes for any property that goes over to parts.

Candidates are looked at in two places: where a member stores them, and at the moments of a run, of
which no trace remains.

## Main definitions

* `Value.EqWith`, `Value.SamePart` — equality of values with a property, and of parts of a document
* `Call.SeeksParts` — calls whose queries find parts
* `Family.Moment` — what is still to be run of a member, and the candidates it is run on

## Main results

* `Family.Linked.moment_of_visit` — what a run stores were candidates at a moment of it
* `Family.candidates_are_parts` — all candidates are parts of the document
-/

namespace Attest

namespace Value

/-- Equality of values that have a property. -/
def EqWith (P : Value → Prop) (v w : Value) : Prop := v = w ∧ P v

/-- Equality of parts of a document. -/
def SamePart (root v w : Value) : Prop := v = w ∧ root.Part v

variable {root : Value} {P : Value → Prop}

theorem forall₂_eqWith {vs : List Value} :
    List.Forall₂ (EqWith P) vs vs ↔ ∀ v ∈ vs, P v := by
  simp [List.forall₂_same, EqWith]

/-- **Equality with a property that goes over to parts is a likeness.** -/
theorem likeness_eqWith (hP : Hereditary P) : Likeness (EqWith P) fun _ => True where
  alike := by
    rintro v _ ⟨rfl, hv⟩
    refine alike_refl ?_ ?_
    · rintro node form items rfl x hx
      exact ⟨rfl, hP.item hv hx⟩
    · rintro node form entries rfl key x hx
      exact ⟨rfl, hP.lookup hv hx⟩
  equals := by
    rintro v _ e ⟨rfl, _⟩ _
    rfl
  legible := by
    rintro v _ ⟨rfl, _⟩
    rfl
  same := by
    rintro v _ v' _ ⟨rfl, _⟩ ⟨rfl, _⟩
    rfl

theorem eq_of_eqWith (v w : Value) (h : EqWith P v w) : v = w := h.1

/-- **Equality of parts is a likeness.** -/
theorem likeness_samePart (root : Value) : Likeness (SamePart root) fun _ => True :=
  likeness_eqWith (hereditary_part root)

end Value

/-! ### Calls -/

/-- The query that the call queues, if it queues one, finds nothing but parts. -/
def Call.SeeksParts : Call → Prop
  | .queue (.select queries _) => queries.FindsParts
  | _ => True

/-- Such a call respects equality with a property that goes over to parts. -/
theorem Call.SeeksParts.fits_eqWith {P : Value → Prop} (hP : Value.Hereditary P) {c : Call}
    (h : c.SeeksParts) : c.Fits (Value.EqWith P) fun _ => True := by
  cases c with
  | queue operation =>
    cases operation with
    | select queries expression =>
      exact ⟨Value.eq_of_eqWith, fun find hfind v found hv hfound x hx =>
        ⟨rfl, (h expression find hfind).within hP hv.2 hfound hx⟩⟩
    | mustSatisfy => exact Value.eq_of_eqWith
    | matching => exact fun _ _ => trivial
    | mustContain | mustNotContain => exact fun _ _ => trivial
    | _ => trivial
  | _ => trivial

namespace Family

variable {f g : Family} {root : Value}

/-! ### Moments -/

/-- The moments of a run: what is still to be run of the queue of a member, and on which candidates.
A run begins with the origin; an entry that ran leaves its candidates to the next one; and every
alternative of a block begins with the candidates that the block came to. -/
inductive Moment (f : Family) : ChainId → List Entry → List Value → Prop where
  | start : Moment f 0 (f.queueOf 0) f.startCandidates
  | next {k : ChainId} {entry : Entry} {rest : List Entry} {vs : List Value} {ran : Ran}
      {record : Record} {visits : List Visit} (h : Moment f k (entry :: rest) vs)
      (hrun : runEntry f.run f.branchesOf vs entry = (.ok (ran, record), visits)) :
      Moment f k rest ran.candidates
  | branch {k c : ChainId} {b : Nat} {rest : List Entry} {vs : List Value}
      (h : Moment f k (.block b :: rest) vs) (hc : c ∈ f.branchesOf b) :
      Moment f c (f.queueOf c) vs

/-- A queue is run from moment to moment, as far as the run comes. -/
theorem Moment.runQueue {k : ChainId} : ∀ {queue : List Entry} {vs : List Value},
    f.Moment k queue vs →
      ∃ rest, f.Moment k rest (runQueue f.run f.branchesOf queue vs).candidates
  | [], vs, h => ⟨[], h⟩
  | entry :: rest, vs, h => by
    rw [Attest.runQueue]
    split
    · exact ⟨entry :: rest, h⟩
    · next ran record visits he => exact (h.next he).runQueue

/-- A visit below a queue belongs to an alternative that begins at a moment. -/
theorem Moment.visit {k : ChainId} {v : Visit} : ∀ {queue : List Entry} {vs : List Value},
    f.Moment k queue vs → v ∈ (Attest.runQueue f.run f.branchesOf queue vs).visits →
      ∃ b c ws, .block b ∈ queue ∧ c ∈ f.branchesOf b ∧ f.Moment c (f.queueOf c) ws ∧
        v ∈ (f.run c ws).visits
  | [], vs, _, hv => absurd hv List.not_mem_nil
  | entry :: rest, vs, h, hv => by
    rw [Attest.runQueue] at hv
    split at hv
    · next fault visits he =>
      obtain ⟨b, c, rfl, hc, hvc, _⟩ := visit_of_runEntry he hv
      exact ⟨b, c, vs, List.mem_cons_self, hc, h.branch hc, hvc⟩
    · next ran record visits he =>
      rcases List.mem_append.mp hv with hv | hv
      · obtain ⟨b, c, rfl, hc, hvc, _⟩ := visit_of_runEntry he hv
        exact ⟨b, c, vs, List.mem_cons_self, hc, h.branch hc, hvc⟩
      · obtain ⟨b, c, ws, hb, hc, hm, hvc⟩ := (h.next he).visit hv
        exact ⟨b, c, ws, List.mem_cons_of_mem _ hb, hc, hm, hvc⟩

/-- **What a run leaves in a member were its candidates at a moment of the run.** -/
theorem Linked.moment_of_visit (h : f.Linked) {v : Visit} {k : Nat} {vs : List Value}
    (hk : k < f.members.length) (hm : f.Moment k (f.queueOf k) vs)
    (hv : v ∈ (f.run k vs).visits) : ∃ rest, f.Moment v.member rest v.candidates := by
  induction hn : f.members.length - k using Nat.strongRecOn generalizing k vs with
  | ind n ih =>
    rw [h.run_eq hk] at hv
    rcases List.mem_append.mp hv with hv | hv
    · obtain ⟨b, c, ws, hb, hc, hmoment, hvc⟩ := hm.visit hv
      obtain ⟨hlt, hc⟩ := h.lt_of_child (mem_children.mpr ⟨b, hb, hc⟩)
      exact ih _ (by omega) hc hmoment hvc rfl
    · rw [List.mem_singleton.mp hv]
      exact hm.runQueue

/-! ### The invariant -/

section

variable {P : Value → Prop} (hP : Value.Hereditary P)

include hP

theorem Reached.eqWith (h : Reached Call.SeeksParts f g)
    (hf : f.Agrees (Value.EqWith P) f) : g.Agrees (Value.EqWith P) g := by
  induction h with
  | start => exact hf
  | call _ _ hc ih => exact (ih.call (Value.likeness_eqWith hP) _ (hc.fits_eqWith hP)).1

end

theorem Reached.samePart (h : Reached Call.SeeksParts f g)
    (hf : f.Agrees (Value.SamePart root) f) : g.Agrees (Value.SamePart root) g :=
  h.eqWith (Value.hereditary_part root) hf

/-- At every moment the candidates are parts, and what is still to be run keeps them so. -/
theorem Moment.samePart {k : ChainId} {rest : List Entry} {vs : List Value}
    (hf : f.Agrees (Value.SamePart root) f) (h : f.Moment k rest vs) :
    List.Forall₂ (Entry.Agrees (Value.SamePart root)) rest rest
      ∧ List.Forall₂ (Value.SamePart root) vs vs := by
  induction h with
  | start => exact ⟨hf.queueOf 0, hf.startCandidates⟩
  | next _ hrun ih =>
    obtain ⟨hqueue, hvs⟩ := ih
    obtain ⟨hentry, hrest⟩ := List.forall₂_cons.mp hqueue
    have hlike := Value.likeness_samePart root
    have hresult := ((hf.run hlike).entry f.branchesOf hlike hvs hentry).1
    rw [hrun] at hresult
    cases hresult with
    | ok hran => exact ⟨hrest, hran.1.candidates⟩
  | branch _ _ ih => exact ⟨hf.queueOf _, ih.2⟩

/-- **Candidates are always parts of the document.** Whatever calls are made on whatever chains of
a family, with queries that are put to packages which find nothing but parts, every candidate that a
chain holds, and every candidate at any moment of a run, is the root of the document or reached from
it by keys and indexes. So if the document is a JSON tree, every candidate has a kind. -/
theorem candidates_are_parts {document : Document} {description : String} {limit : Int}
    {raising : Bool} (h : Reached Call.SeeksParts (start document description limit raising) f) :
    (∀ k m, f.member? k = some m → ∀ v ∈ m.candidates,
        document.root.Part v ∧ (document.root.JsonTree → Succeeds v.kind))
      ∧ ∀ k rest vs, f.Moment k rest vs → ∀ v ∈ vs,
        document.root.Part v ∧ (document.root.JsonTree → Succeeds v.kind) := by
  have hstart : (start document description limit raising).Agrees (Value.SamePart document.root)
      (start document description limit raising) :=
    agrees_start document description description limit limit raising ⟨rfl, .root⟩ rfl
  have hf := h.samePart hstart
  have hparts {vs : List Value} (hvs : List.Forall₂ (Value.SamePart document.root) vs vs) :
      ∀ v ∈ vs, document.root.Part v ∧ (document.root.JsonTree → Succeeds v.kind) := by
    intro v hv
    have hpart := Value.forall₂_eqWith.mp hvs v hv
    exact ⟨hpart, hpart.succeeds_kind⟩
  constructor
  · intro k m hm
    have hmember := hf.member? k
    rw [hm] at hmember
    cases hmember with
    | some hmember => exact hparts hmember.candidates
  · intro k rest vs hmoment
    exact hparts (hmoment.samePart hf).2

/-- The list that a chain was left with after a query for it in an object. -/
theorem candidates_are_parts_of_list :
    let list := Value.array 2 .list [.null]
    let root := Value.object 1 .plain [(.str "a", list)]
    let f := start (.ofValue root) "json document" 100 false
    let seek := Call.queue (.select Query.engine (.str "a"))
    ∃ m, ((f.call 0 seek).1.call 0 .verify).1.member? 0 = some m ∧
      m.candidates = [list] ∧ root.Part list ∧ Succeeds list.kind := by
  intro list root f seek
  have hseek : seek.SeeksParts := Query.engine_documented.findsParts
  have hreached : Reached Call.SeeksParts f ((f.call 0 seek).1.call 0 .verify).1 :=
    .call (.call .start (by decide) hseek) (by decide) trivial
  have htree : root.JsonTree := ⟨⟨trivial, trivial⟩, trivial⟩
  obtain ⟨m, hm, hcandidates⟩ : ∃ m,
      ((f.call 0 seek).1.call 0 .verify).1.member? 0 = some m ∧
        m.candidates = [list] := ⟨_, rfl, rfl⟩
  have hlist : list ∈ m.candidates := hcandidates ▸ List.mem_singleton_self list
  obtain ⟨hpart, hkind⟩ := (candidates_are_parts hreached).1 0 m hm list hlist
  exact ⟨m, hm, hcandidates, hpart, hkind htree⟩

end Family

end Attest

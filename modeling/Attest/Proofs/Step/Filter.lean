import Attest.Proofs.Step.Sequence
import Attest.Proofs.Value.Regular
import Attest.Step.Operation

/-!
# Filters as conditions

A filter asks for entries, and keeps the objects that hold all of them. Asking for the entries one
after the other, as a filter does, or all together, or in filters of their own comes to the same, so
a row of filters is the conjunction of what they ask for: neither their order nor how the entries
are distributed among them can be told from what is left.

Mappings that are put together have one value for each key. For that to be the conjunction of the
two, the values under a common key must be such that no value can equal the one and not the other.
Two equal values are, and so are two that are NaN, which no value equals at all.

## Main definitions

* `Value.Holds` — an object has an entry with an equal value
* `holding` — the candidates that hold all the entries
* `Operation.criteria?` — the entries that a filter asks for
* `merged`, `Concur` — mappings put together, and one value under each common key

## Main results

* `Operation.run_filter` — a filter passes, and leaves what holds its entries
* `forall_holds_merged` — what holds two mappings put together
* `Operation.filters_conjoin` — filters in a row
-/

namespace Attest

namespace Value

/-- The value that an object has under a key. -/
def entry? (v key : Value) : Option Value :=
  match v with
  | .object _ _ entries => lookup key entries
  | _ => none

/-- The value is an object with an entry under the key that equals what is expected. -/
def Holds (v key expected : Value) : Prop :=
  ∃ actual ∈ v.entry? key, actual.equals expected = .ok true

instance (v key expected : Value) : Decidable (v.Holds key expected) :=
  inferInstanceAs (Decidable (∃ actual ∈ v.entry? key, actual.equals expected = .ok true))

end Value

/-- The candidates that hold all the entries. -/
def holding (criteria : Entries) (vs : List Value) : List Value :=
  vs.filter fun v => ∀ e ∈ criteria, v.Holds e.1 e.2

/-- Keys that a mapping can have, and values that can be compared. -/
def Usable (criteria : Entries) : Prop := ∀ e ∈ criteria, e.1.unhashable? = none ∧ e.2.JsonTree

/-- The entries that a filter asks for. -/
def Operation.criteria? : Operation → Option Entries
  | .containing key expected => some [(key, expected)]
  | .matching criteria => some criteria
  | _ => none

variable {c d : Entries} {vs : List Value} {v : Value}

/-! ### What is held -/

/-- Only objects hold entries. -/
theorem Value.Holds.kind {key expected : Value} (h : v.Holds key expected) :
    v.kind = .ok .object := by
  obtain ⟨actual, hactual, -⟩ := h
  cases v with
  | object => rfl
  | _ => cases hactual

theorem mem_holding : v ∈ holding c vs ↔ v ∈ vs ∧ ∀ e ∈ c, v.Holds e.1 e.2 := by
  simp [holding]

theorem holding_sublist (c : Entries) (vs : List Value) : (holding c vs).Sublist vs :=
  List.filter_sublist

theorem holding_congr
    (h : ∀ v ∈ vs, (∀ e ∈ c, v.Holds e.1 e.2) ↔ ∀ e ∈ d, v.Holds e.1 e.2) :
    holding c vs = holding d vs :=
  List.filter_congr fun v hv => decide_eq_decide.mpr (h v hv)

/-- What holds some entries, of what holds others. -/
theorem holding_holding (c d : Entries) (vs : List Value) :
    holding d (holding c vs) = holding (c ++ d) vs := by
  simp only [holding, List.filter_filter, List.forall_mem_append, Bool.decide_and, Bool.and_comm]

theorem jsonTree_holding (hvs : ∀ v ∈ vs, v.JsonTree) (c : Entries) :
    ∀ v ∈ holding c vs, v.JsonTree :=
  fun v hv => hvs v (mem_holding.mp hv).1

/-! ### Filters -/

theorem holdsEntry_decides {key expected : Value} (hkey : key.unhashable? = none)
    (he : expected.JsonTree) (hv : v.JsonTree) :
    Value.Decides (holdsEntry key expected v) (v.Holds key expected) := by
  cases v with
  | object node form entries =>
    simp only [holdsEntry, hkey]
    cases hlookup : Value.lookup key entries with
    | none => exact ⟨false, rfl, by simp [Value.Holds, Value.entry?, hlookup]⟩
    | some actual =>
      obtain ⟨same, hsame⟩ := (hv.lookup hlookup).equals_ok he
      exact ⟨same, hsame, by simp [Value.Holds, Value.entry?, hlookup, hsame]⟩
  | set | bytes | date | timestamp | pattern | missing => exact hv.elim
  | _ => exact ⟨false, rfl, by simp [Value.Holds, Value.entry?]⟩

theorem keep_eq_filter {test : Value → Except Fault Bool} {P : Value → Prop} [DecidablePred P]
    (h : ∀ v ∈ vs, Value.Decides (test v) (P v)) : keep test vs = .ok (vs.filter P) := by
  induction vs with
  | nil => rfl
  | cons v rest ih =>
    obtain ⟨⟨holds, hholds, hP⟩, hrest⟩ := List.forall_mem_cons.mp h
    rw [keep, hholds, ih hrest]
    cases holds with
    | true => simp [hP.mp rfl, bind, Except.bind, pure, Except.pure]
    | false =>
      have hnot : ¬ P v := fun hv => Bool.false_ne_true (hP.mpr hv)
      simp [hnot, bind, Except.bind, pure, Except.pure]

theorem keep_eq_holding {key expected : Value} (hkey : key.unhashable? = none)
    (he : expected.JsonTree) (hvs : ∀ v ∈ vs, v.JsonTree) :
    keep (holdsEntry key expected) vs = .ok (holding [(key, expected)] vs) := by
  rw [keep_eq_filter fun v hv => holdsEntry_decides hkey he (hvs v hv)]
  simp [holding]

theorem keepMatching_eq_holding : ∀ {c : Entries} {vs : List Value}, Usable c →
    (∀ v ∈ vs, v.JsonTree) → keepMatching c vs = .ok (holding c vs)
  | [], vs, _, _ => by simp [keepMatching, holding]
  | (key, expected) :: rest, vs, hc, hvs => by
    obtain ⟨⟨hkey, he⟩, hrest⟩ := List.forall_mem_cons.mp hc
    rw [keepMatching, keep_eq_holding hkey he hvs]
    exact (keepMatching_eq_holding hrest (jsonTree_holding hvs _)).trans
      (congrArg _ (holding_holding _ rest vs))

theorem succeeds_containing_iff {key expected : Value} :
    Succeeds (Step.containing key expected) ↔ key.Legible ∧ expected.Legible := by
  have hshown : Succeeds (expected.excerpt Value.defaultLimit) ↔ expected.Legible :=
    Value.succeeds_excerpt_iff
  rw [← Value.succeeds_label_iff, ← hshown]
  exact succeeds_both_iff _

theorem succeeds_matching_iff :
    Succeeds (Step.matching c) ↔ ∀ e ∈ c, e.1.Legible ∧ e.2.Legible := by
  rw [← Value.legibleEntries_iff_forall]
  exact (succeeds_return_iff _).trans Value.succeeds_excerpt_iff

theorem run_containing {key expected : Value} {s : Step} (hkey : key.unhashable? = none)
    (he : expected.JsonTree) (hvs : ∀ v ∈ vs, v.JsonTree)
    (hs : Step.containing key expected = .ok s) :
    s.run vs = .ok ⟨true, keptMessage (holding [(key, expected)] vs).length vs.length,
      holding [(key, expected)] vs⟩ := by
  obtain ⟨shownKey, _, hs⟩ := bind_eq_ok hs
  obtain ⟨shown, _, hs⟩ := bind_eq_ok hs
  cases hs
  simp only [keep_eq_holding hkey he hvs]
  rfl

theorem run_matching {s : Step} (hc : Usable c) (hvs : ∀ v ∈ vs, v.JsonTree)
    (hs : Step.matching c = .ok s) :
    s.run vs = .ok ⟨true, keptMessage (holding c vs).length vs.length, holding c vs⟩ := by
  obtain ⟨shown, _, hs⟩ := bind_eq_ok hs
  cases hs
  simp only [keepMatching_eq_holding hc hvs]
  rfl

namespace Operation

variable {o p : Operation} {root : Value} {limit : Int} {s t : Step}

/-- A filter can be made iff the entries can be shown. -/
theorem succeeds_filter_iff (ho : o.criteria? = some c) :
    Succeeds (o.step root limit) ↔ ∀ e ∈ c, e.1.Legible ∧ e.2.Legible := by
  cases o with
  | containing key expected =>
    cases ho
    exact succeeds_containing_iff.trans (by simp)
  | matching criteria =>
    cases ho
    exact succeeds_matching_iff
  | _ => cases ho

/-- **A filter passes, and leaves what holds its entries.** -/
theorem run_filter (ho : o.criteria? = some c) (hc : Usable c) (hvs : ∀ v ∈ vs, v.JsonTree)
    (hs : o.step root limit = .ok s) :
    s.run vs = .ok ⟨true, keptMessage (holding c vs).length vs.length, holding c vs⟩ := by
  cases o with
  | containing key expected =>
    cases ho
    obtain ⟨hkey, he⟩ := hc _ List.mem_cons_self
    exact run_containing hkey he hvs hs
  | matching criteria =>
    cases ho
    exact run_matching hc hvs hs
  | _ => cases ho

/-- Two filters, one after the other, leave what holds the entries of both. -/
theorem run_two_filters (ho : o.criteria? = some c) (hp : p.criteria? = some d) (hc : Usable c)
    (hd : Usable d) (hvs : ∀ v ∈ vs, v.JsonTree) (hs : o.step root limit = .ok s)
    (ht : p.step root limit = .ok t) : ComesTo [s, t] vs true (holding (c ++ d) vs) := by
  rw [← holding_holding]
  exact comesTo_cons (run_filter ho hc hvs hs)
    (comesTo_singleton (run_filter hp hd (jsonTree_holding hvs c) ht))

end Operation

/-- Filters of one entry each, in a row. -/
theorem comesTo_containing : ∀ {c : Entries} {vs : List Value} {steps : List Step}, Usable c →
    (∀ v ∈ vs, v.JsonTree) → c.mapM (fun e => Step.containing e.1 e.2) = .ok steps →
    ComesTo steps vs true (holding c vs)
  | [], vs, _, _, _, h => by
    cases h
    simpa [holding] using comesTo_nil vs
  | e :: rest, vs, _, hc, hvs, h => by
    rw [List.mapM_cons] at h
    obtain ⟨first, hfirst, h⟩ := bind_eq_ok h
    obtain ⟨others, hothers, h⟩ := bind_eq_ok h
    cases h
    obtain ⟨⟨hkey, he⟩, hrest⟩ := List.forall_mem_cons.mp hc
    have hrun := run_containing hkey he hvs hfirst
    have hsplit : holding (e :: rest) vs = holding rest (holding [e] vs) :=
      (holding_holding [e] rest vs).symm
    rw [hsplit]
    exact comesTo_cons hrun (comesTo_containing hrest (jsonTree_holding hvs _) hothers)

/-! ### Mappings put together -/

/-- Two mappings put together: an old key keeps its place and gets the new value. -/
def merged (c d : Entries) : Entries := d.foldl (fun es e => Value.insert e.1 e.2 es) c

/-- No key stands twice. -/
def DistinctKeys (d : Entries) : Prop := d.Pairwise fun e f => Value.sameKey f.1 e.1 = false

/-- Under each common key there is one value in both mappings. -/
def Concur (c d : Entries) : Prop :=
  ∀ e ∈ c, ∀ f ∈ d, Value.sameKey f.1 e.1 = true → e.2 = f.2 ∨ e.2.equals f.2 = .ok true

namespace Value

variable {key key' expected expected' v : Value} {es : Entries}

/-- One of two expected values is held under a key iff the other is. -/
def Interchangeable (v expected expected' : Value) : Prop :=
  ∀ key, v.Holds key expected ↔ v.Holds key expected'

theorem Regular.interchangeable (hv : v.Regular) (he : expected.Regular)
    (he' : expected'.Regular) (h : expected = expected' ∨ expected.equals expected' = .ok true) :
    v.Interchangeable expected expected' := by
  rcases h with rfl | h
  · exact fun _ => Iff.rfl
  · intro key
    refine exists_congr fun actual => and_congr_right fun hactual => ?_
    cases v with
    | object node form entries =>
      have ha : actual.Regular := hv.2.lookup hactual
      exact ha.equals_congr he he' h
    | _ => cases hactual

/-- What is one key for an object has one value in it. -/
theorem Regular.entry?_congr (hv : v.Regular) (h : sameKey key key' = true) :
    v.entry? key = v.entry? key' := by
  cases v with
  | object node form entries =>
    show lookup key entries = lookup key' entries
    by_cases hkey : ∃ s, key = .str s
    · obtain ⟨s, rfl⟩ := hkey
      rw [sameKey_str_iff.mp h]
    · have hkey' : ∀ s, key' ≠ .str s := by
        rintro s rfl
        exact hkey ⟨s, sameKey_iff_str.mp h⟩
      rw [lookup_of_ne_str (not_exists.mp hkey) hv.2.keys, lookup_of_ne_str hkey' hv.2.keys]
  | _ => rfl

theorem Regular.holds_congr (hv : v.Regular) (h : sameKey key key' = true) :
    v.Holds key expected ↔ v.Holds key' expected := by
  rw [Holds, Holds, hv.entry?_congr h]

theorem mem_insert {e : Value × Value} : ∀ {es : Entries}, e ∈ insert key expected es →
    e ∈ es ∨ e = (key, expected)
      ∨ ∃ f ∈ es, sameKey key f.1 = true ∧ e = (f.1, expected)
  | [], h => .inr (.inl (List.mem_singleton.mp h))
  | (k, w) :: rest, h => by
    rw [insert] at h
    split at h
    · next hkey =>
      rcases List.mem_cons.mp h with rfl | h
      · exact .inr (.inr ⟨(k, w), List.mem_cons_self, hkey, rfl⟩)
      · exact .inl (List.mem_cons_of_mem _ h)
    · rcases List.mem_cons.mp h with rfl | h
      · exact .inl List.mem_cons_self
      · rcases mem_insert h with h | h | ⟨f, hf, h⟩
        · exact .inl (List.mem_cons_of_mem _ h)
        · exact .inr (.inl h)
        · exact .inr (.inr ⟨f, List.mem_cons_of_mem _ hf, h⟩)

theorem forall_holds_insert (hv : v.Regular) : ∀ {es : Entries},
    (∀ e ∈ es, sameKey key e.1 = true → v.Interchangeable e.2 expected) →
    ((∀ e ∈ insert key expected es, v.Holds e.1 e.2) ↔
      (∀ e ∈ es, v.Holds e.1 e.2) ∧ v.Holds key expected)
  | [], _ => by simp [insert]
  | (k, w) :: rest, h => by
    obtain ⟨hfirst, hrest⟩ := List.forall_mem_cons.mp h
    rw [insert]
    split
    · next hkey =>
      rw [List.forall_mem_cons, List.forall_mem_cons, hfirst hkey k, hv.holds_congr hkey]
      tauto
    · rw [List.forall_mem_cons, List.forall_mem_cons, forall_holds_insert hv hrest, and_assoc]

end Value

/-- **What holds two mappings put together holds both,** if their common keys have values that are
interchangeable for it. -/
theorem forall_holds_merged (hv : v.Regular) : ∀ {d c : Entries}, DistinctKeys d →
    (∀ e ∈ c, ∀ f ∈ d, Value.sameKey f.1 e.1 = true → v.Interchangeable e.2 f.2) →
    ((∀ e ∈ merged c d, v.Holds e.1 e.2) ↔ ∀ e ∈ c ++ d, v.Holds e.1 e.2)
  | [], c, _, _ => by simp [merged]
  | f :: rest, c, hd, h => by
    obtain ⟨hf, hrest⟩ := List.pairwise_cons.mp hd
    -- the entry that was put in has nothing to do with the others of its mapping
    have hnext : ∀ e ∈ Value.insert f.1 f.2 c, ∀ g ∈ rest, Value.sameKey g.1 e.1 = true →
        v.Interchangeable e.2 g.2 := by
      intro e he g hg hkey
      rcases Value.mem_insert he with he | rfl | ⟨e', he', hkey', rfl⟩
      · exact h e he g (List.mem_cons_of_mem _ hg) hkey
      · exact absurd hkey (by simp [hf g hg])
      · intro key
        exact (h e' he' f List.mem_cons_self hkey' key).symm.trans
          (h e' he' g (List.mem_cons_of_mem _ hg) hkey key)
    have hinsert : (∀ e ∈ Value.insert f.1 f.2 c, v.Holds e.1 e.2) ↔
        (∀ e ∈ c, v.Holds e.1 e.2) ∧ v.Holds f.1 f.2 :=
      Value.forall_holds_insert hv fun e he => h e he f List.mem_cons_self
    rw [merged, List.foldl_cons, ← merged, forall_holds_merged hv hrest hnext,
      List.forall_mem_append, hinsert, List.forall_mem_append, List.forall_mem_cons, and_assoc]

/-- Nothing is in two mappings put together that was not in one of them. -/
theorem mem_merged {e : Value × Value} : ∀ {d c : Entries}, e ∈ merged c d →
    ∃ f ∈ c ++ d, ∃ g ∈ c ++ d, e = (f.1, g.2)
  | [], c, h => ⟨e, by simpa [merged] using h, e, by simpa [merged] using h, rfl⟩
  | f :: rest, c, h => by
    have hfrom {g : Value × Value} (hg : g ∈ Value.insert f.1 f.2 c ++ rest) :
        ∃ k ∈ c ++ f :: rest, ∃ w ∈ c ++ f :: rest, g = (k.1, w.2) := by
      rcases List.mem_append.mp hg with hg | hg
      · rcases Value.mem_insert hg with hg | rfl | ⟨k, hk, -, rfl⟩
        · exact ⟨g, by simp [hg], g, by simp [hg], rfl⟩
        · exact ⟨f, by simp, f, by simp, rfl⟩
        · exact ⟨k, by simp [hk], f, by simp, rfl⟩
      · exact ⟨g, by simp [hg], g, by simp [hg], rfl⟩
    obtain ⟨k, hk, w, hw, rfl⟩ := mem_merged (c := Value.insert f.1 f.2 c) h
    obtain ⟨k', hk', _, _, hkey⟩ := hfrom hk
    obtain ⟨_, _, w', hw', hvalue⟩ := hfrom hw
    exact ⟨k', hk', w', hw', by rw [hkey, hvalue]⟩

theorem Usable.merged (hc : Usable c) (hd : Usable d) : Usable (merged c d) := by
  intro e he
  obtain ⟨f, hf, g, hg, rfl⟩ := mem_merged he
  have hboth : Usable (c ++ d) := List.forall_mem_append.mpr ⟨hc, hd⟩
  exact ⟨(hboth f hf).1, (hboth g hg).2⟩

/-! ### Filters in a row -/

namespace Operation

/-- **Filters in a row are a conjunction.** A filter can be made iff its entries can be shown. It
passes on all candidates, and leaves those, in their order, that are objects and hold each of its
entries. So it may be run twice, two filters may change places, and a filter of several entries
comes to the same as filters of one entry each, in any order. Where mappings of well-formed values
have one value under each common key, filters of the two come to the same as one filter of both put
together, also if there is NaN among the values. -/
theorem filters_conjoin {o p : Operation} {c d : Entries} (ho : o.criteria? = some c)
    (hp : p.criteria? = some d) (hc : Usable c) (hd : Usable d) {vs : List Value}
    (hvs : ∀ v ∈ vs, v.JsonTree) (root : Value) (limit : Int) :
    (Succeeds (o.step root limit) ↔ ∀ e ∈ c, e.1.Legible ∧ e.2.Legible)
      ∧ ∀ s t, o.step root limit = .ok s → p.step root limit = .ok t →
        s.run vs = .ok ⟨true, keptMessage (holding c vs).length vs.length, holding c vs⟩
        ∧ (holding c vs).Sublist vs
        ∧ ComesTo [s, s] vs true (holding c vs)
        ∧ (∃ ws, ComesTo [s, t] vs true ws ∧ ComesTo [t, s] vs true ws)
        ∧ (∀ order : Entries, order.Perm c →
          ∃ steps, order.mapM (fun e => Step.containing e.1 e.2) = .ok steps
            ∧ ComesTo steps vs true (holding c vs))
        ∧ ((∀ v ∈ vs, v.Regular) → (∀ e ∈ c ++ d, e.2.Regular) → DistinctKeys d → Concur c d →
          ∃ whole, Step.matching (merged c d) = .ok whole
            ∧ ∃ ws, ComesTo [s, t] vs true ws ∧ ComesTo [whole] vs true ws) := by
  refine ⟨succeeds_filter_iff ho, fun s t hs ht => ?_⟩
  have hlegible := (succeeds_filter_iff ho).mp ⟨s, hs⟩
  have hlegible' := (succeeds_filter_iff hp).mp ⟨t, ht⟩
  refine ⟨run_filter ho hc hvs hs, holding_sublist c vs, ?_, ?_, ?_, ?_⟩
  · have htwice := run_two_filters ho ho hc hc hvs hs hs
    rwa [holding_congr (c := c ++ c) (d := c) fun v _ => by simp] at htwice
  · refine ⟨_, run_two_filters ho hp hc hd hvs hs ht, ?_⟩
    rw [holding_congr (c := c ++ d) (d := d ++ c) fun v _ => by
      rw [List.forall_mem_append, List.forall_mem_append, and_comm]]
    exact run_two_filters hp ho hd hc hvs ht hs
  · intro order horder
    have hmem (e : Value × Value) : e ∈ order ↔ e ∈ c := horder.mem_iff
    obtain ⟨steps, hsteps⟩ : Succeeds (order.mapM fun e => Step.containing e.1 e.2) :=
      succeeds_mapM_iff.mpr fun e he => succeeds_containing_iff.mpr (hlegible e ((hmem e).mp he))
    refine ⟨steps, hsteps, ?_⟩
    rw [holding_congr (c := c) (d := order) fun v _ => by simp only [hmem]]
    exact comesTo_containing (fun e he => hc e ((hmem e).mp he)) hvs hsteps
  · intro hregular hvalues hdistinct hconcur
    obtain ⟨hvaluesLeft, hvaluesRight⟩ := List.forall_mem_append.mp hvalues
    have hshown : ∀ e ∈ c ++ d, e.1.Legible ∧ e.2.Legible :=
      List.forall_mem_append.mpr ⟨hlegible, hlegible'⟩
    obtain ⟨whole, hwhole⟩ : Succeeds (Step.matching (merged c d)) := by
      refine succeeds_matching_iff.mpr fun e he => ?_
      obtain ⟨f, hf, g, hg, rfl⟩ := mem_merged he
      exact ⟨(hshown f hf).1, (hshown g hg).2⟩
    refine ⟨whole, hwhole, _, run_two_filters ho hp hc hd hvs hs ht, ?_⟩
    rw [holding_congr (c := c ++ d) (d := merged c d) fun v hv =>
      (forall_holds_merged (hregular v hv) hdistinct fun e he f hf hkey =>
        (hregular v hv).interchangeable (hvaluesLeft e he) (hvaluesRight f hf)
          (hconcur e he f hf hkey)).symm]
    exact comesTo_singleton (run_matching (hc.merged hd) hvs hwhole)

/-- An integer and its rounding under a common key, and NaN, which neither equals. -/
theorem filters_conjoin_rounded :
    let c : Entries := [(.str "n", .int 2)]
    let d : Entries := [(.str "n", .float (.finite false (2 ^ 52) (-51)))]
    let vs := [.record [("n", .int 2), ("m", .float .nan)], .record [("n", .float .nan)], .null]
    Usable c ∧ Usable d ∧ (∀ v ∈ vs, v.Regular) ∧ (∀ e ∈ c ++ d, e.2.Regular) ∧ DistinctKeys d
      ∧ Concur c d
      ∧ ∃ s t whole, Step.matching c = .ok s ∧ Step.matching d = .ok t
        ∧ Step.matching (merged c d) = .ok whole
        ∧ ∃ ws, ws.length = 1 ∧ ComesTo [s, t] vs true ws ∧ ComesTo [whole] vs true ws := by
  intro c d vs
  have hc : Usable c := by simp [c, Usable, Value.unhashable?, Value.JsonTree]
  have hd : Usable d := by simp [d, Usable, Value.unhashable?, Value.JsonTree]
  have hvs : ∀ v ∈ vs, v.Regular := by
    simp [vs, Value.record, Value.dict, Value.Regular, Value.RegularEntries]
  have hvalues : ∀ e ∈ c ++ d, e.2.Regular := by
    simp [c, d, Value.Regular, Double.IsNumber, Double.mantissaBound, Double.minExponent,
      Double.maxExponent]
  have hdistinct : DistinctKeys d := List.pairwise_singleton _ _
  have hconcur : Concur c d := by
    simp only [Concur, c, d, List.forall_mem_singleton]
    exact fun _ => .inr (by decide +kernel)
  obtain ⟨s, hs⟩ : Succeeds (Step.matching c) :=
    succeeds_matching_iff.mpr (by simp [c, Value.Legible, lt_digitBound])
  obtain ⟨t, ht⟩ : Succeeds (Step.matching d) :=
    succeeds_matching_iff.mpr (by simp [d, Value.Legible])
  have htrees : ∀ v ∈ vs, v.JsonTree := fun v hv => (hvs v hv).jsonTree
  obtain ⟨-, hall⟩ :=
    filters_conjoin (o := .matching c) (p := .matching d) rfl rfl hc hd htrees .null 0
  obtain ⟨-, -, -, -, -, hmerged⟩ := hall s t hs ht
  obtain ⟨whole, hwhole, ws, hrow, hone⟩ := hmerged hvs hvalues hdistinct hconcur
  have hrun := run_matching (hc.merged hd) htrees hwhole
  have hws : ws = holding (merged c d) vs :=
    hone.candidates.symm.trans (comesTo_singleton hrun).candidates
  exact ⟨hc, hd, hvs, hvalues, hdistinct, hconcur, s, t, whole, hs, ht, hwhole, ws,
    hws ▸ by decide +kernel, hrow, hone⟩

end Operation

end Attest

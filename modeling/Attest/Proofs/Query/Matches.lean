import Attest.Proofs.Value.Part
import Attest.Query.Eval

/-!
# What queries find

A query goes down, and with its ancestors at hand up again, but never outside of the value that it
started from. So whatever holds of all parts of a value holds of what a query finds in it.

Evaluation is interrupted in two ways only, by the operator that can be written but is not there
and by the parent of the start.

Chains do not rely on more than that. What they ask of a package for queries is said here, and the
package at hand has it.

## Main definitions

* `QueryEngine.FindsParts` — a package whose queries find parts
* `QueryEngine.Documented` — and are interrupted by few faults

## Main results

* `Query.select_within` — what a query finds has the hereditary properties of where it starts
* `Query.select_error` — the two faults of evaluating a query
* `Query.engine_documented` — the package at hand
-/

namespace Attest

/-! ### What is asked of a package -/

/-- Only parts of a value are found in it. -/
def Finder.FindsParts (find : Finder) : Prop :=
  ∀ v found, find v = .ok found → ∀ x ∈ found, v.Part x

/-- A package whose queries find nothing but parts. -/
def QueryEngine.FindsParts (queries : QueryEngine) : Prop :=
  ∀ expression find, queries expression = .ok find → find.FindsParts

/-- A package that finds parts and is interrupted by few faults: it comes to no query for an integer
that has too many digits, and a search ends at an operator that is not there, or at the parent of
the start. -/
structure QueryEngine.Documented (queries : QueryEngine) : Prop where
  findsParts : queries.FindsParts
  interrupts : ∀ text fault, queries (.str text) = .error (.interrupted fault) →
    ∃ count, fault = .tooManyDigits count
  stops : ∀ text find, queries (.str text) = .ok find → ∀ v fault, find v = .error fault →
    fault = .unsupportedQuery ∨ fault = .noParent

/-- What is found in a value has the hereditary properties of the value. -/
theorem Finder.FindsParts.within {find : Finder} (h : find.FindsParts) {P : Value → Prop}
    (hP : Value.Hereditary P) {v x : Value} {found : List Value} (hv : P v)
    (hfound : find v = .ok found) (hx : x ∈ found) : P x :=
  hP.part (h v found hfound x hx) hv

namespace Query

/-! ### Collecting -/

section Collect

variable {α β : Type} {f : α → Except Fault (List β)}

theorem mem_collect {y : β} : ∀ {l : List α} {ys : List β}, collect f l = .ok ys → y ∈ ys →
    ∃ x ∈ l, ∃ zs, f x = .ok zs ∧ y ∈ zs
  | [], ys, h, hy => by
    rw [collect] at h
    cases h
    simp at hy
  | x :: rest, ys, h, hy => by
    rw [collect] at h
    obtain ⟨zs, hx, h⟩ := bind_eq_ok h
    obtain ⟨others, hrest, h⟩ := bind_eq_ok h
    cases h
    rcases List.mem_append.mp hy with hy | hy
    · exact ⟨x, List.mem_cons_self, zs, hx, hy⟩
    · obtain ⟨w, hw, hfound⟩ := mem_collect hrest hy
      exact ⟨w, List.mem_cons_of_mem _ hw, hfound⟩

theorem collect_error {fault : Fault} : ∀ {l : List α}, collect f l = .error fault →
    ∃ x ∈ l, f x = .error fault
  | x :: rest, h => by
    rw [collect] at h
    rcases bind_eq_error h with h | ⟨_, _, h⟩
    · exact ⟨x, List.mem_cons_self, h⟩
    · rcases bind_eq_error h with h | ⟨_, _, h⟩
      · obtain ⟨w, hw, hf⟩ := collect_error h
        exact ⟨w, List.mem_cons_of_mem _ hw, hf⟩
      · cases h

end Collect

/-! ### Matches -/

/-- A match with a property that everything above it has, too. -/
def Match.Within (P : Value → Prop) (m : Match) : Prop := P m.value ∧ ∀ v ∈ m.above, P v

section Within

variable {P : Value → Prop} (hP : Value.Hereditary P)

namespace Match

variable {m : Match}

theorem Within.below (h : m.Within P) {v : Value} (hv : P v) : (m.below v).Within P := by
  refine ⟨hv, fun w hw => ?_⟩
  rcases List.mem_cons.mp hw with rfl | hw
  · exact h.1
  · exact h.2 w hw

theorem Within.start (h : m.Within P) : m.start.Within P := by
  refine ⟨?_, by simp [Match.start]⟩
  cases hl : m.above.getLast? with
  | none => simpa [Match.start, hl] using h.1
  | some v => simpa [Match.start, hl] using h.2 v (List.mem_of_getLast? hl)

mutual

theorem treeOf_within (hP : Value.Hereditary P) :
    ∀ {v : Value} {above : List Value}, P v → (∀ w ∈ above, P w) →
    ∀ found ∈ treeOf above v, found.Within P
  | .array node form items, above, hv, ha => by
    have hbelow : ∀ w ∈ Value.array node form items :: above, P w :=
      List.forall_mem_cons.mpr ⟨hv, ha⟩
    rw [treeOf]
    refine List.forall_mem_cons.mpr ⟨⟨hv, ha⟩, ?_⟩
    exact treeOfItems_within hP (fun w hw => hP.item hv hw) hbelow
  | .object node form entries, above, hv, ha => by
    have hbelow : ∀ w ∈ Value.object node form entries :: above, P w :=
      List.forall_mem_cons.mpr ⟨hv, ha⟩
    rw [treeOf]
    refine List.forall_mem_cons.mpr ⟨⟨hv, ha⟩, ?_⟩
    exact treeOfEntries_within hP (fun e he => hP.entry hv he) hbelow
  | .null, _, hv, ha | .bool _, _, hv, ha | .int _, _, hv, ha | .float _, _, hv, ha
  | .str _, _, hv, ha | .set _, _, hv, ha | .bytes _, _, hv, ha | .date _, _, hv, ha
  | .timestamp _, _, hv, ha | .pattern .., _, hv, ha | .missing, _, hv, ha => fun found hf => by
    rw [List.mem_singleton.mp hf]
    exact ⟨hv, ha⟩

theorem treeOfItems_within (hP : Value.Hereditary P) : ∀ {items above : List Value},
    (∀ w ∈ items, P w) → (∀ w ∈ above, P w) → ∀ found ∈ treeOfItems above items, found.Within P
  | [], _, _, _ => by simp [treeOfItems]
  | v :: rest, above, h, ha => by
    obtain ⟨hv, hrest⟩ := List.forall_mem_cons.mp h
    rw [treeOfItems]
    exact List.forall_mem_append.mpr ⟨treeOf_within hP hv ha, treeOfItems_within hP hrest ha⟩

theorem treeOfEntries_within (hP : Value.Hereditary P) : ∀ {entries : Entries} {above : List Value},
    (∀ e ∈ entries, P e.2) → (∀ w ∈ above, P w) →
    ∀ found ∈ treeOfEntries above entries, found.Within P
  | [], _, _, _ => by simp [treeOfEntries]
  | (_, v) :: rest, above, h, ha => by
    obtain ⟨hv, hrest⟩ := List.forall_mem_cons.mp h
    rw [treeOfEntries]
    exact List.forall_mem_append.mpr ⟨treeOf_within hP hv ha, treeOfEntries_within hP hrest ha⟩

end

include hP

theorem Within.item (h : m.Within P) {node : NodeId} {form : ArrayForm} {items : List Value}
    (hm : m.value = .array node form items) {v : Value} (hv : v ∈ items) :
    (m.below v).Within P := by
  have harray : P (.array node form items) := hm ▸ h.1
  exact h.below (hP.item harray hv)

theorem Within.children (h : m.Within P) : ∀ found ∈ m.children, found.Within P := by
  intro found hfound
  unfold Match.children at hfound
  split at hfound
  · next hm =>
    obtain ⟨v, hv, rfl⟩ := List.mem_map.mp hfound
    exact h.item hP hm hv
  · next node form entries hm =>
    obtain ⟨e, he, rfl⟩ := List.mem_map.mp hfound
    have hobject : P (.object node form entries) := hm ▸ h.1
    exact h.below (hP.entry hobject he)
  · simp at hfound

theorem Within.field (h : m.Within P) (name : String) :
    ∀ found ∈ m.field name, found.Within P := by
  intro found hfound
  unfold Match.field at hfound
  split at hfound
  · next node form entries hm =>
    obtain ⟨v, hv, rfl⟩ := Option.map_eq_some_iff.mp (Option.mem_toList.mp hfound)
    have hobject : P (.object node form entries) := hm ▸ h.1
    exact h.below (hP.lookup hobject hv)
  · simp at hfound

theorem Within.element (h : m.Within P) (index : Int) :
    ∀ found ∈ m.element index, found.Within P := by
  intro found hfound
  unfold Match.element at hfound
  split at hfound
  · next items hm =>
    generalize (if index < 0 then index + items.length else index) = position at hfound
    dsimp only at hfound
    split at hfound
    · obtain ⟨v, hv, rfl⟩ := Option.map_eq_some_iff.mp (Option.mem_toList.mp hfound)
      exact h.item hP hm (List.mem_of_getElem? hv)
    · simp at hfound
  · simp at hfound

theorem Within.slice (h : m.Within P) (first last step : Option Int) :
    ∀ found ∈ m.slice first last step, found.Within P := by
  intro found hfound
  unfold Match.slice at hfound
  split at hfound
  · next hm =>
    obtain ⟨i, _, hi⟩ := List.mem_filterMap.mp hfound
    obtain ⟨v, hv, rfl⟩ := Option.map_eq_some_iff.mp hi
    exact h.item hP hm (List.mem_of_getElem? hv)
  · simp at hfound

end Match

/-! ### Evaluation -/

include hP

theorem eval_within : ∀ {q : Query} {m : Match} {ms : List Match}, m.Within P → eval q m = .ok ms →
    ∀ found ∈ ms, found.Within P := by
  intro q
  induction q with
  | root =>
    intro m ms hm h found hf
    cases h
    rw [List.mem_singleton.mp hf]
    exact hm.start
  | this =>
    intro m ms hm h found hf
    cases h
    rw [List.mem_singleton.mp hf]
    exact hm
  | parent =>
    intro m ms hm h found hf
    unfold eval at h
    split at h
    · next v above habove =>
      cases h
      rw [List.mem_singleton.mp hf]
      exact ⟨hm.2 v (by simp [habove]), fun w hw => hm.2 w (by simp [habove, hw])⟩
    · cases h
  | any =>
    intro m ms hm h found hf
    cases h
    exact hm.children hP found hf
  | fields names =>
    intro m ms hm h found hf
    cases h
    obtain ⟨name, _, hf⟩ := List.mem_flatMap.mp hf
    exact hm.field hP name found hf
  | indexes positions =>
    intro m ms hm h found hf
    cases h
    obtain ⟨index, _, hf⟩ := List.mem_flatMap.mp hf
    exact hm.element hP index found hf
  | slice first last step =>
    intro m ms hm h found hf
    cases h
    exact hm.slice hP first last step found hf
  | child left right ihl ihr =>
    intro m ms hm h found hf
    obtain ⟨mid, hleft, hright⟩ := bind_eq_ok h
    obtain ⟨x, hx, zs, hzs, hfound⟩ := mem_collect hright hf
    exact ihr (ihl hm hleft x hx) hzs found hfound
  | descendants left right ihl ihr =>
    intro m ms hm h found hf
    obtain ⟨mid, hleft, hright⟩ := bind_eq_ok h
    obtain ⟨x, hx, zs, hzs, hfound⟩ := mem_collect hright hf
    obtain ⟨y, hy, ws, hws, hfound⟩ := mem_collect hzs hfound
    have hx := ihl hm hleft x hx
    exact ihr (Match.treeOf_within hP hx.1 hx.2 y hy) hws found hfound
  | union left right ihl ihr =>
    intro m ms hm h found hf
    obtain ⟨first, hleft, h⟩ := bind_eq_ok h
    obtain ⟨second, hright, h⟩ := bind_eq_ok h
    cases h
    rcases List.mem_append.mp hf with hf | hf
    · exact ihl hm hleft found hf
    · exact ihr hm hright found hf
  | intersection left right =>
    intro m ms hm h
    cases h
  | whereHolds left right ihl _ =>
    intro m ms hm h found hf
    obtain ⟨mid, hleft, h⟩ := bind_eq_ok h
    obtain ⟨x, hx, zs, hzs, hfound⟩ := mem_collect h hf
    obtain ⟨others, _, hzs⟩ := bind_eq_ok hzs
    cases hzs
    split at hfound
    · simp at hfound
    · rw [List.mem_singleton.mp hfound]
      exact ihl hm hleft x hx
  | whereFails left right ihl _ =>
    intro m ms hm h found hf
    obtain ⟨mid, hleft, h⟩ := bind_eq_ok h
    obtain ⟨x, hx, zs, hzs, hfound⟩ := mem_collect h hf
    obtain ⟨others, _, hzs⟩ := bind_eq_ok hzs
    cases hzs
    split at hfound
    · rw [List.mem_singleton.mp hfound]
      exact ihl hm hleft x hx
    · simp at hfound

/-- **What a query finds has the hereditary properties of where it starts.** -/
theorem select_within {q : Query} {v w : Value} {found : List Value} (hv : P v)
    (h : q.select v = .ok found) (hw : w ∈ found) : P w := by
  obtain ⟨ms, hms, rfl⟩ := map_eq_ok h
  obtain ⟨m, hm, rfl⟩ := List.mem_map.mp hw
  exact (eval_within hP ⟨hv, by simp⟩ hms m hm).1

end Within

theorem eval_error {fault : Fault} : ∀ {q : Query} {m : Match}, eval q m = .error fault →
    fault = .unsupportedQuery ∨ fault = .noParent := by
  intro q
  induction q with
  | root | this | any | fields | indexes | slice =>
    intro m h
    cases h
  | parent =>
    intro m h
    unfold eval at h
    split at h
    · cases h
    · exact .inr (Except.error.inj h).symm
  | child left right ihl ihr =>
    intro m h
    rcases bind_eq_error h with h | ⟨_, _, h⟩
    · exact ihl h
    · obtain ⟨x, _, hx⟩ := collect_error h
      exact ihr hx
  | descendants left right ihl ihr =>
    intro m h
    rcases bind_eq_error h with h | ⟨_, _, h⟩
    · exact ihl h
    · obtain ⟨x, _, hx⟩ := collect_error h
      obtain ⟨y, _, hy⟩ := collect_error hx
      exact ihr hy
  | union left right ihl ihr =>
    intro m h
    rcases bind_eq_error h with h | ⟨_, _, h⟩
    · exact ihl h
    · rcases bind_eq_error h with h | ⟨_, _, h⟩
      · exact ihr h
      · cases h
  | intersection left right =>
    intro m h
    exact .inl (Except.error.inj h).symm
  | whereHolds left right ihl ihr | whereFails left right ihl ihr =>
    intro m h
    rcases bind_eq_error h with h | ⟨_, _, h⟩
    · exact ihl h
    · obtain ⟨x, _, hx⟩ := collect_error h
      rcases bind_eq_error hx with hx | ⟨_, _, hx⟩
      · exact ihr hx
      · cases hx

/-- **Only an operator that is not there and the parent of the start interrupt a query.** -/
theorem select_error {q : Query} {v : Value} {fault : Fault} (h : q.select v = .error fault) :
    fault = .unsupportedQuery ∨ fault = .noParent := by
  unfold select at h
  cases he : eval q ⟨v, []⟩ with
  | error e =>
    rw [he] at h
    cases h
    exact eval_error he
  | ok ms =>
    rw [he] at h
    cases h

/-! ### The package at hand -/

theorem engine_eq_ok {expression : Value} {find : Finder} (h : engine expression = .ok find) :
    ∃ q : Query, find = q.select := by
  unfold engine at h
  split at h
  · split at h
    · next q _ => exact ⟨q, (Except.ok.inj h).symm⟩
    · cases h
    · cases h
  · cases h

/-- **The package at hand keeps to what is documented.** -/
theorem engine_documented : engine.Documented where
  findsParts expression find h v found hfound x hx := by
    obtain ⟨q, rfl⟩ := engine_eq_ok h
    exact select_within (Value.hereditary_part v) .root hfound hx
  interrupts text fault h := by
    unfold engine at h
    split at h
    · split at h
      · cases h
      · cases h
      · next count _ => exact ⟨some count, (QueryTrouble.interrupted.inj (Except.error.inj h)).symm⟩
    · next hstr => exact absurd rfl (hstr text)
  stops text find h v fault hfault := by
    obtain ⟨q, rfl⟩ := engine_eq_ok h
    exact select_error hfault

end Query

end Attest

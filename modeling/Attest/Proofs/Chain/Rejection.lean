import Attest.Proofs.Chain.Conclusion

/-!
# Finalizers that come too late

A family reports once. A finalizer that is called on a member of a family that has already been
finalized is rejected, and one would expect a rejected call to do nothing. Three of the four
finalizers queue the check of the number of candidates before they look whether they may: the
check stays in the queue of the member they were called on, and since it will never be run, the
member no longer counts as passed.

That it no longer does rests on an invariant of all families that calls of any sort lead to: the
records of a member belong to the first entries of its queue.

## Main definitions

* `Family.Filed` — every record belongs to the entry at its place

## Main results

* `Family.Filed.call` — every call keeps a family filed
* `Family.call_of_finalized` — exactly what a late finalizer does
* `Family.rejection_not_atomic` — a finalized family that a rejected finalizer changes
-/

namespace Attest

namespace Family

variable {f : Family} {k : Nat} {c : Call}

/-! ### Records and entries -/

/-- Records belong to the first entries of the queue, in order. -/
def Filed (f : Family) : Prop :=
  ∀ j m, f.member? j = some m → m.records.map Record.description <+: m.queue.map Entry.label

theorem filed_start (document : Document) (description : String) (limit : Int) (raising : Bool) :
    (start document description limit raising).Filed := by
  intro j m hm
  rw [List.mem_singleton.mp (List.mem_of_getElem? hm)]
  exact List.nil_prefix

theorem Filed.of_members {g : Family} (h : f.Filed) (hm : g.members = f.members) : g.Filed := by
  intro j m hj
  rw [member?, hm] at hj
  exact h j m hj

theorem Filed.queueFor (h : f.Filed) (entry : Entry) : (f.queueFor k entry).Filed := by
  intro j m hm
  rw [member?_queueFor] at hm
  obtain ⟨old, hold, rfl⟩ := Option.map_eq_some_iff.mp hm
  split
  · rw [List.map_append]
    exact (h j old hold).trans (List.prefix_append ..)
  · exact h j old hold

theorem Filed.branchOff (h : f.Filed) (owner : ChainId) : (f.branchOff owner).Filed := by
  intro j m hm
  rcases List.mem_append.mp (List.mem_of_getElem? hm) with hold | hnew
  · obtain ⟨i, hi, hget⟩ := List.mem_iff_getElem.mp hold
    exact h i m (by rw [member?, List.getElem?_eq_getElem hi, hget])
  · rw [List.mem_singleton.mp hnew]
    exact List.nil_prefix

theorem Filed.ran (h : f.Filed) {d j : Nat} {candidates : List Value} :
    (f.ran (runMember f d j candidates)).Filed := by
  intro i m hm
  obtain ⟨old, hold, hq, _, _, hlast⟩ := member_of_recordVisits hm
  rcases hlast with ⟨_, rfl⟩ | ⟨v, hv, rfl, hrecords, _⟩
  · exact h i m hold
  · have hfiled := visit_labels hv
    rw [hrecords, hq, ← queueOf_of_some hold]
    exact hfiled

/-- A conclusion leaves a family as it was, or as a run leaves it, but for what it reports. -/
theorem conclude_shared (f : Family) :
    ∃ g, (g = f ∨ g = f.ran (f.run 0 f.startCandidates)) ∧
      f.conclude.1 = { g with
        finalized := f.conclude.1.finalized, reported := f.conclude.1.reported } := by
  cases hf : f.finalized with
  | true =>
    have hconclude : f.conclude.1 = f := by simp [conclude, hf]
    exact ⟨f, .inl rfl, by rw [hconclude]⟩
  | false =>
    cases hv : f.document.problem with
    | some problem => exact ⟨f, .inl rfl, by simp [conclude, hf, hv, report]⟩
    | none =>
      refine ⟨_, .inr rfl, ?_⟩
      cases hfault : (f.run 0 f.startCandidates).fault with
      | some fault => rw [conclude_of_fault hf hv hfault]
      | none =>
        cases ho : f.outcomeOf (f.run 0 f.startCandidates) with
        | error fault => rw [conclude_of_hidden hf hv hfault ho]
        | ok outcome => rw [conclude_of_outcome hf hv hfault ho]

theorem conclude_members (f : Family) :
    f.conclude.1.members = f.members ∨
      f.conclude.1.members = (f.ran (f.run 0 f.startCandidates)).members := by
  obtain ⟨g, hg, hshared⟩ := conclude_shared f
  have hmembers : f.conclude.1.members = g.members := by rw [hshared]
  rw [hmembers]
  exact hg.imp (congrArg Family.members ·) (congrArg Family.members ·)

theorem Filed.conclude (h : f.Filed) : f.conclude.1.Filed := by
  rcases conclude_members f with he | he
  · exact h.of_members he
  · exact h.ran.of_members he

theorem close_members (f : Family) : f.close.1.members = f.members := by
  unfold close
  split <;> rfl

/-- **Every call, whether it is rejected or not, keeps records and entries together.** -/
theorem Filed.call (h : f.Filed) : (f.call k c).1.Filed := by
  cases c with
  | queue operation =>
    simp only [Family.call, perform]
    split
    · exact h
    · exact h.queueFor _
  | openBlock => exact (h.branchOff k).of_members rfl
  | nextBranch =>
    simp only [Family.call, nextBranch]
    split
    · exact h.of_members rfl
    · exact (h.branchOff _).of_members rfl
  | closeBlock =>
    simp only [Family.call, closeBlock]
    split
    · exact h.of_members rfl
    · exact Filed.queueFor (h.of_members rfl) _
  | verify => exact h.conclude
  | finish relation n =>
    simp only [Family.call]
    split
    · exact h
    · exact (h.queueFor _).conclude
  | trace | enter => exact h
  | close => exact h.of_members (close_members f)
  | exit propagating =>
    simp only [Family.call]
    split
    · exact h
    · exact h.of_members (close_members f)

theorem Reached.filed {f₀ : Family} {sort : Call → Prop} (h₀ : f₀.Filed)
    (h : Reached sort f₀ f) : f.Filed := by
  induction h with
  | start => exact h₀
  | call _ _ _ ih => exact ih.call

/-- A member with an entry more than was run has not passed. -/
theorem Filed.memberPassed_queueFor (h : f.Filed) (entry : Entry) :
    (f.queueFor k entry).memberPassed k = false := by
  rw [memberPassed, member?_queueFor]
  cases hm : f.member? k with
  | none => rfl
  | some m =>
    have hle : m.records.length ≤ m.queue.length := by
      simpa using (h k m hm).length_le
    have hne : m.records.length ≠ m.queue.length + 1 := by omega
    simp [hne]

/-! ### Late finalizers -/

theorem count_error {relation : Relation} {n : Value} {fault : Fault}
    (h : Step.count relation n = .error fault) : fault = .tooManyDigits none := by
  rcases bind_eq_error h with h | ⟨_, _, h⟩
  · exact Value.label_error h
  · cases h

theorem conclude_of_finalized (hf : f.finalized = true) :
    f.conclude = (f, .error (.alreadyFinalized f.description)) := by
  simp [conclude, hf]

theorem queueFor_ne (hk : k < f.members.length) (entry : Entry) : f.queueFor k entry ≠ f := by
  intro he
  obtain ⟨m, hm⟩ : ∃ m, f.member? k = some m := ⟨_, List.getElem?_eq_getElem hk⟩
  have hqueue : m.queue ++ [entry] = m.queue := by
    simpa [member?_queueFor, hm] using congrArg (fun g => (g.member? k).map Member.queue) he
  simpa using congrArg List.length hqueue

/-- **What a late finalizer does.** It is rejected without effect only if it checks no number of
candidates. One that does leaves its check in the queue of its member, which thereby no longer
counts as passed, and nothing else is changed; a check that cannot even be described is the fault
given, and then nothing is changed. -/
theorem call_of_finalized {document : Document} {description : String} {limit : Int}
    {raising : Bool} (h : Reached (fun _ => True) (start document description limit raising) f)
    (hf : f.finalized = true) (hk : k < f.members.length) (hc : c.Finalizes) :
    (f.call k c = (f, .error (.alreadyFinalized f.description)) ↔ c = .verify) ∧
      ∀ relation n, c = .finish relation n →
        (∀ fault, Step.count relation n = .error fault →
          fault = .tooManyDigits none ∧ f.call k c = (f, .error fault)) ∧
        ∀ s, Step.count relation n = .ok s →
          f.call k c = (f.queueFor k (.step s), .error (.alreadyFinalized f.description)) ∧
            (f.call k c).1.memberPassed k = false ∧
            { (f.call k c).1 with members := f.members } = f ∧
            ∀ j, j ≠ k → (f.call k c).1.member? j = f.member? j := by
  have hlate : ∀ {relation n s}, Step.count relation n = .ok s → f.call k (.finish relation n)
      = (f.queueFor k (.step s), .error (.alreadyFinalized f.description)) := by
    intro relation n s hs
    simp only [call, hs, verify]
    rw [conclude_of_finalized (f := f.queueFor k (.step s)) hf]
    rfl
  constructor
  · cases c with
    | verify =>
      refine ⟨fun _ => rfl, fun _ => ?_⟩
      rw [call, verify, conclude_of_finalized hf]
      rfl
    | finish relation n =>
      refine ⟨fun he => ?_, by rintro ⟨⟩⟩
      cases hs : Step.count relation n with
      | ok s =>
        rw [hlate hs] at he
        exact absurd (Prod.mk.inj he).1 (queueFor_ne hk _)
      | error fault =>
        simp only [call, hs, Prod.mk.injEq, Except.error.injEq, count_error hs] at he
        exact absurd he.2 (by simp)
    | queue | openBlock | nextBranch | closeBlock | trace | close | enter | exit => exact hc.elim
  · rintro relation n rfl
    refine ⟨fun fault hs => ⟨count_error hs, by simp only [call, hs]⟩, fun s hs => ?_⟩
    rw [hlate hs]
    refine ⟨rfl, (h.filed (filed_start _ _ _ _)).memberPassed_queueFor _, rfl, fun j hj => ?_⟩
    simp [member?_queueFor, Ne.symm hj]

theorem count_one (relation : Relation) : ∃ s, Step.count relation (.int 1) = .ok s := by
  have hone : Int.natAbs 1 < digitBound :=
    (Nat.one_lt_pow (by decide) (by decide) : 1 < 10 ^ digitLimit)
  exact ⟨_, by simp only [Step.count, Value.label, Value.display, intText, if_pos hone]; rfl⟩

/-- A chain without steps that was verified, and then asked again for one candidate. -/
theorem call_of_finalized_exactly_one :
    ∃ f, Reached (fun _ => True) (start (.ofValue (.bool true)) "json document" 100 false) f ∧
      f.finalized = true ∧ 0 < f.members.length ∧ Call.Finalizes (.finish .exactly (.int 1)) ∧
      (f.call 0 (.finish .exactly (.int 1))).2 = .error (.alreadyFinalized "json document") ∧
      (f.call 0 (.finish .exactly (.int 1))).1.memberPassed 0 = false := by
  let f := ((start (.ofValue (.bool true)) "json document" 100 false).call 0 .verify).1
  have h : Reached (fun _ => True) (start (.ofValue (.bool true)) "json document" 100 false) f :=
    .call .start (k := 0) (by decide) trivial
  obtain ⟨s, hs⟩ := count_one .exactly
  obtain ⟨hcall, hpassed, _⟩ :=
    (call_of_finalized (k := 0) (c := .finish .exactly (.int 1)) h rfl (by decide) trivial).2
      _ _ rfl |>.2 s hs
  exact ⟨f, h, rfl, by decide, trivial, by rw [hcall]; rfl, hpassed⟩

/-- **A rejected finalizer can change a family.** After a first verdict every member that was run
counts as passed; the rejected call makes the origin count as not passed. -/
theorem rejection_not_atomic :
    ∃ f, Reached (fun _ => True) (start (.ofValue (.bool true)) "json document" 100 false) f ∧
      f.finalized = true ∧ f.memberPassed 0 = true ∧
      (f.call 0 (.finish .exactly (.int 1))).2 = .error (.alreadyFinalized "json document") ∧
      (f.call 0 (.finish .exactly (.int 1))).1.memberPassed 0 = false ∧
      (f.call 0 (.finish .exactly (.int 1))).1 ≠ f := by
  let f := ((start (.ofValue (.bool true)) "json document" 100 false).call 0 .verify).1
  have h : Reached (fun _ => True) (start (.ofValue (.bool true)) "json document" 100 false) f :=
    .call .start (k := 0) (by decide) trivial
  obtain ⟨s, hs⟩ := count_one .exactly
  have hcall : f.call 0 (.finish .exactly (.int 1))
      = (f.queueFor 0 (.step s), .error (.alreadyFinalized "json document")) := by
    simp only [call, hs, verify]
    rfl
  have hlate : (f.queueFor 0 (.step s)).memberPassed 0 = false :=
    (h.filed (filed_start _ _ _ _)).memberPassed_queueFor _
  refine ⟨f, h, rfl, rfl, ?_, ?_, ?_⟩
  · rw [hcall]
  · rw [hcall, hlate]
  · rw [hcall]
    exact queueFor_ne (by decide) _

end Family

end Attest

import Attest.Proofs.Chain.Rejection

/-!
# One outcome for a family

A family reports once, whatever is asked of its members and in whatever order. The first call that
settles it does so: a finalizer, unless its run is interrupted, or a close. From then on the family
is finalized, later finalizers are rejected and later closes do nothing.

Two descriptions of calls carry the proof. A call that does not settle a family is a building call
or does nothing at all, so a family that is not settled is one that building calls lead to. And in
a finalized family every call does at most what a building call does, so that nothing is reported
any more.

A finalizer may ask for a number of candidates that has no text, because it has too many digits.
It is then refused before anything else is looked at. It settles nothing, and is no rejected
finalizer either.

## Main definitions

* `Call.Closes`, `Call.Settles` — the calls that end a family unfinished, and those that end it
* `Family.evaluation` — the outcome that a finalizer reports
* `Family.complaints` — what a call is noted for
* `Family.Settled` — what settling a family does
* `Family.Spent` — what calls do to a family that was settled

## Main results

* `Family.call_of_not_settles`, `Family.Built.late` — the two descriptions
* `Family.call_of_settles` — a call that settles is a close or a conclusion
* `Family.conclude_of_evaluation` — a finalizer reports the outcome of the evaluation
* `Family.one_outcome_ever` — one outcome, from the first call that settles the family
-/

namespace Attest

/-- The calls that report a family as unfinished. -/
def Call.Closes : Call → Prop
  | .close => True
  | .exit propagating => propagating = false
  | _ => False

/-- The call asks for a number of candidates that has no text. -/
def Call.Indescribable : Call → Prop
  | .finish _ n => ¬ Succeeds n.label
  | _ => False

/-- The calls that end a family. -/
def Call.Settles (c : Call) : Prop := c.Closes ∨ c.Finalizes ∧ ¬ c.Indescribable

theorem Call.Closes.not_finalizes {c : Call} (hc : c.Closes) : ¬ c.Finalizes := by
  cases c with
  | close | exit => exact id
  | queue | openBlock | nextBranch | closeBlock | verify | finish | trace | enter => exact hc.elim

theorem succeeds_count_iff (relation : Relation) {n : Value} :
    Succeeds (Step.count relation n) ↔ Succeeds n.label := by
  refine ⟨fun h => ?_, fun h => h.bind fun shown _ => succeeds_ok _⟩
  obtain ⟨shown, hshown, _⟩ := succeeds_bind_iff.mp h
  exact ⟨shown, hshown⟩

namespace Family

variable {f g r : Family} {k : ChainId} {c : Call}

/-! ### Calls that settle and calls that do not -/

theorem readied_of_describable (hc : c.Finalizes) (hd : ¬ c.Indescribable) (f : Family)
    (k : ChainId) : ∃ r, f.readied k c = .ok r := by
  cases c with
  | verify => exact ⟨f, rfl⟩
  | finish relation n =>
    obtain ⟨s, hs⟩ := (succeeds_count_iff relation).mpr (not_not.mp hd)
    exact ⟨f.queueFor k (.step s), by rw [readied, hs]; rfl⟩
  | queue | openBlock | nextBranch | closeBlock | trace | close | enter | exit => exact hc.elim

/-- Readying a family changes members only. -/
theorem readied_shared (h : f.readied k c = .ok r) : r = { f with members := r.members } := by
  rcases readied_eq h with rfl | ⟨s, rfl⟩ <;> rfl

theorem readied_finalized (h : f.readied k c = .ok r) : r.finalized = f.finalized := by
  rw [readied_shared h]

theorem readied_misuse (h : f.readied k c = .ok r) : r.misuse = f.misuse := by
  rw [readied_shared h]

/-- A finalizer that cannot describe its step does nothing. -/
theorem call_of_indescribable (hd : c.Indescribable) (f : Family) (k : ChainId) :
    f.call k c = (f, .error (.tooManyDigits none)) := by
  cases c with
  | finish relation n =>
    obtain ⟨fault, hs⟩ := not_succeeds_iff.mp (mt (succeeds_count_iff relation).mp hd)
    rw [call, hs, count_error hs]
  | verify | queue | openBlock | nextBranch | closeBlock | trace | close | enter | exit =>
    exact hd.elim

theorem call_of_closes (hc : c.Closes) (f : Family) (k : ChainId) :
    f.call k c = (f.close.1, f.close.2.map fun _ => .nothing) := by
  cases c with
  | close => rfl
  | exit propagating =>
    cases hc
    rfl
  | queue | openBlock | nextBranch | closeBlock | verify | finish | trace | enter => exact hc.elim

/-- A call that settles a family closes it, or concludes it once it is readied. -/
theorem call_of_settles (hc : c.Settles) (f : Family) (k : ChainId) :
    c.Closes ∧ f.call k c = (f.close.1, f.close.2.map fun _ => .nothing) ∨
      ∃ r, f.readied k c = .ok r ∧
        f.call k c = (r.conclude.1, r.conclude.2.map .verdict) := by
  rcases hc with hc | ⟨hfin, hd⟩
  · exact .inl ⟨hc, call_of_closes hc f k⟩
  · obtain ⟨r, hr⟩ := readied_of_describable hfin hd f k
    exact .inr ⟨r, hr, call_of_readied hfin hr⟩

/-- A call that does not settle a family builds it, or does nothing. -/
theorem call_of_not_settles (h : ¬ c.Settles) (f : Family) (k : ChainId) :
    c.Builds ∨ (f.call k c).1 = f := by
  cases c with
  | queue | openBlock | nextBranch | closeBlock => exact .inl trivial
  | trace | enter => exact .inr rfl
  | verify => exact absurd (.inr ⟨trivial, id⟩) h
  | close => exact absurd (.inl trivial) h
  | finish relation n =>
    have hd : Call.Indescribable (.finish relation n) :=
      not_not.mp fun hd => h (.inr ⟨trivial, hd⟩)
    exact .inr (congrArg Prod.fst (call_of_indescribable hd f k))
  | exit propagating =>
    cases propagating with
    | false => exact absurd (.inl rfl) h
    | true => exact .inr rfl

/-- **A family that is not settled is one that building calls lead to.** -/
theorem Reached.builds (h : Reached (fun c => ¬ c.Settles) f g) : Reached Call.Builds f g := by
  induction h with
  | start => exact .start
  | call _ hk hc ih =>
    rcases call_of_not_settles hc _ _ with hb | he
    · exact .call ih hk hb
    · rw [he]
      exact ih

/-- Calls settle nothing, or there is a first one that settles the family. -/
theorem Reached.first_settling (h : Reached (fun _ => True) f g) :
    Reached (fun c => ¬ c.Settles) f g ∨
      ∃ h k c, Reached (fun c => ¬ c.Settles) f h ∧ k < h.members.length ∧ c.Settles ∧
        Reached (fun _ => True) (h.call k c).1 g := by
  induction h with
  | start => exact .inl .start
  | @call g k c _ hk _ ih =>
    rcases ih with hr | ⟨h, j, d, hr, hj, hd, hg⟩
    · by_cases hc : c.Settles
      · exact .inr ⟨g, k, c, hr, hk, hc, .start⟩
      · exact .inl (.call hr hk hc)
    · exact .inr ⟨h, j, d, hr, hj, hd, .call hg hk trivial⟩

/-! ### Complaints -/

/-- What a call is noted for: going on with a block, or ending one, that was never begun. -/
def complaints (f : Family) : Call → List String
  | .nextBranch => if f.openBlocks.isEmpty then ["or_else() without either()"] else []
  | .closeBlock => if f.openBlocks.isEmpty then ["end() without either()"] else []
  | _ => []

theorem complaints_of_not_builds (hc : ¬ c.Builds) : f.complaints c = [] := by
  cases c with
  | queue | openBlock | nextBranch | closeBlock => exact absurd trivial hc
  | verify | finish | trace | close | enter | exit => rfl

/-- Building calls are noted in their order. -/
theorem misuse_call (hc : c.Builds) : (f.call k c).1.misuse = f.misuse ++ f.complaints c := by
  cases c with
  | queue operation =>
    simp only [call, perform]
    split <;> exact (List.append_nil _).symm
  | openBlock => exact (List.append_nil _).symm
  | nextBranch =>
    cases ho : f.openBlocks <;> simp [call, nextBranch, complaints, ho, noteMisuse, branchOff]
  | closeBlock =>
    cases ho : f.openBlocks <;>
      simp [call, closeBlock, complaints, ho, noteMisuse, queueFor, modifyMember]
  | verify | finish | trace | close | enter | exit => exact hc.elim

/-- A complaint names a call, with its parentheses. -/
theorem paren_of_complaints {message : String} (h : message ∈ f.complaints c) :
    '(' ∈ message.toList := by
  cases c with
  | nextBranch | closeBlock =>
    rw [complaints] at h
    split at h
    · rw [List.mem_singleton.mp h]
      decide
    · cases h
  | queue | openBlock | verify | finish | trace | close | enter | exit => cases h

theorem Reached.paren_of_misuse (hf : f.misuse = []) (h : Reached Call.Builds f g) :
    ∀ message ∈ g.misuse, '(' ∈ message.toList := by
  induction h with
  | start => simp [hf]
  | call _ _ hc ih =>
    intro message hm
    rw [misuse_call hc] at hm
    rcases List.mem_append.mp hm with hm | hm
    · exact ih message hm
    · exact paren_of_complaints hm

/-! ### The outcome of a finalizer -/

/-- The outcome for a text that is no document. -/
def invalidOutcome (f : Family) (problem : String) : Outcome :=
  { description := f.description, passed := false, reason := "invalid JSON: " ++ problem }

/-- The outcome that a finalizer reports, unless a fault interrupts the run. -/
def evaluation (f : Family) : Except Fault Outcome :=
  match f.document.problem with
  | some problem => .ok (f.invalidOutcome problem)
  | none =>
    match (f.run 0 f.startCandidates).fault with
    | some fault => .error fault
    | none => f.outcomeOf (f.run 0 f.startCandidates)

theorem evaluation_of_invalid {problem : String} (hv : f.document.problem = some problem) :
    f.evaluation = .ok (f.invalidOutcome problem) := by
  simp only [evaluation, hv]

/-- What an outcome is put together from. -/
theorem outcomeOf_eq_ok {p : Progress} {outcome : Outcome} (h : f.outcomeOf p = .ok outcome) :
    ∃ texts, outcome = {
      description := f.description
      passed := f.problems.isEmpty && allPassed p.records
      reason := f.reason p.records
      trace := trace 0 p.records
      candidates := texts } := by
  obtain ⟨texts, _, h⟩ := bind_eq_ok h
  exact ⟨texts, (Except.ok.inj h).symm⟩

/-- An outcome of a valid document is that of a run which nothing interrupted. -/
theorem evaluation_eq_ok (hv : f.document.problem = none) {outcome : Outcome}
    (h : f.evaluation = .ok outcome) :
    (f.run 0 f.startCandidates).fault = none ∧
      f.outcomeOf (f.run 0 f.startCandidates) = .ok outcome := by
  simp only [evaluation, hv] at h
  split at h
  · cases h
  · next hfault => exact ⟨hfault, h⟩

/-- What the sink answers to an outcome. -/
def answer (f : Family) (outcome : Outcome) (reply : Reply) : Except Fault Reply :=
  if f.raising && !outcome.passed then .error (.failedOutcome outcome) else .ok reply

/-- A conclusion that a fault interrupts reports nothing. -/
theorem conclude_of_interrupted (hf : f.finalized = false) {fault : Fault}
    (h : f.evaluation = .error fault) :
    f.conclude.2 = .error fault ∧ f.conclude.1.finalized = true ∧
      f.conclude.1.reported = f.reported := by
  cases hv : f.document.problem with
  | some problem =>
    rw [evaluation_of_invalid hv] at h
    cases h
  | none =>
    have hconclude : f.conclude = (f.ran (f.run 0 f.startCandidates), .error fault) := by
      simp only [evaluation, hv] at h
      split at h
      · next hfault =>
        cases h
        exact conclude_of_fault hf hv hfault
      · next hfault => exact conclude_of_hidden hf hv hfault h
    rw [hconclude, ran_eq]
    exact ⟨rfl, rfl, rfl⟩

/-- **A conclusion that no fault interrupts reports the outcome of the evaluation.** -/
theorem conclude_of_evaluation (hf : f.finalized = false) {outcome : Outcome}
    (h : f.evaluation = .ok outcome) :
    f.conclude.2.map .verdict = f.answer outcome (.verdict outcome.passed) ∧
      f.conclude.1.finalized = true ∧ f.conclude.1.reported = f.reported ++ [outcome] := by
  cases hv : f.document.problem with
  | some problem =>
    rw [evaluation_of_invalid hv] at h
    cases h
    simp only [conclude, hf, hv, report, answer, invalidOutcome]
    refine ⟨?_, rfl, rfl⟩
    cases f.raising <;> rfl
  | none =>
    obtain ⟨hfault, ho⟩ := evaluation_eq_ok hv h
    rw [conclude_of_outcome hf hv hfault ho, ran_eq]
    refine ⟨?_, rfl, rfl⟩
    unfold answer
    split <;> rfl

/-! ### Reasons -/

theorem notFinalized_chars : '(' ∉ notFinalized.toList ∧ ':' ∉ notFinalized.toList := by
  decide

theorem mem_toList_intercalate (separator : String) {texts : List String} {text : String}
    (h : text ∈ texts) {char : Char} (hc : char ∈ text.toList) :
    char ∈ (separator.intercalate texts).toList := by
  rw [String.toList_intercalate, List.intercalate]
  refine List.mem_flatten.mpr ⟨text.toList, ?_, hc⟩
  induction texts with
  | nil => cases h
  | cons t ts ih =>
    cases ts with
    | nil =>
      rw [List.mem_singleton.mp h]
      exact List.mem_singleton.mpr rfl
    | cons u us =>
      simp only [List.map_cons, List.intersperse_cons_cons, List.mem_cons] at ih ⊢
      rcases List.mem_cons.mp h with rfl | h
      · exact .inl rfl
      · exact .inr (.inr (ih (List.mem_cons.mp h)))

/-- What was wrong with the use of a chain is told with the names of calls. -/
theorem paren_of_problems (hm : ∀ message ∈ f.misuse, '(' ∈ message.toList) {text : String}
    (h : text ∈ f.problems) : '(' ∈ text.toList := by
  rcases List.mem_append.mp h with h | h
  · exact hm text h
  · split at h
    · cases h
    · rw [List.mem_singleton.mp h, String.toList_append]
      exact List.mem_append_right _ (by decide)

/-- **No finalizer gives the reason that a close gives.** -/
theorem reason_ne_notFinalized (hm : ∀ message ∈ f.misuse, '(' ∈ message.toList)
    {outcome : Outcome} (h : f.evaluation = .ok outcome) : outcome.reason ≠ notFinalized := by
  intro he
  cases hv : f.document.problem with
  | some problem =>
    rw [evaluation_of_invalid hv] at h
    cases h
    refine notFinalized_chars.2 ?_
    rw [← he, invalidOutcome, String.toList_append]
    exact List.mem_append_left _ (by decide)
  | none =>
    obtain ⟨texts, rfl⟩ := outcomeOf_eq_ok (evaluation_eq_ok hv h).2
    dsimp only at he
    rw [reason] at he
    split at he
    · next hp =>
      obtain ⟨text, htext⟩ := List.exists_mem_of_ne_nil f.problems (by simpa using hp)
      refine notFinalized_chars.1 ?_
      rw [← he]
      exact mem_toList_intercalate _ htext (paren_of_problems hm htext)
    · split at he
      · refine notFinalized_chars.2 ?_
        rw [← he, String.toList_append, String.toList_append]
        exact List.mem_append_left _ (List.mem_append_right _ (by decide))
      · exact absurd he (by decide)

/-! ### Settling -/

/-- The outcome of a family that was closed and never finalized. -/
def unfinished (f : Family) : Outcome :=
  { description := f.description, passed := false, reason := notFinalized }

/-- What a call that settles a family does. A close reports it as unfinished; a finalizer runs what
was queued, and reports the outcome unless a fault interrupts it before. -/
structure Settled (f : Family) (k : ChainId) (c : Call) : Prop where
  closed : c.Closes → f.call k c = ({ f with finalized := true, reported := [f.unfinished] },
    f.answer f.unfinished .nothing)
  finalized : c.Finalizes → ∃ r, f.readied k c = .ok r ∧
    (∀ fault, r.evaluation = .error fault →
      (f.call k c).2 = .error fault ∧ (f.call k c).1.reported = []) ∧
    ∀ outcome, r.evaluation = .ok outcome →
      (f.call k c).2 = f.answer outcome (.verdict outcome.passed) ∧
        (f.call k c).1.reported = [outcome]

/-- What calls do to a family that was settled: finalizers are rejected, unless they are refused
already, and the end of a scope does nothing. -/
structure Spent (g : Family) : Prop where
  finalized : g.finalized = true
  rejected : ∀ j c, c.Finalizes → ¬ c.Indescribable →
    (g.call j c).2 = .error (.alreadyFinalized g.description)
  refused : ∀ j c, c.Indescribable → g.call j c = (g, .error (.tooManyDigits none))
  closed : ∀ j c, c.Closes ∨ c = .exit true → g.call j c = (g, .ok .nothing)

theorem settled_of_settles (hf : f.finalized = false) (hn : f.reported = []) (hc : c.Settles)
    (k : ChainId) : f.Settled k c where
  closed := by
    intro hc
    rw [call_of_closes hc]
    simp only [close, hf, report, hn, answer, unfinished]
    cases f.raising <;> rfl
  finalized := by
    intro hfin
    have hd : ¬ c.Indescribable := by
      rcases hc with hc | ⟨_, hd⟩
      · exact absurd hfin hc.not_finalizes
      · exact hd
    obtain ⟨r, hr⟩ := readied_of_describable hfin hd f k
    have hrf : r.finalized = false := (readied_finalized hr).trans hf
    obtain ⟨hrn, hra⟩ : r.reported = [] ∧ r.raising = f.raising := by
      rw [readied_shared hr]
      exact ⟨hn, rfl⟩
    rw [call_of_readied hfin hr]
    refine ⟨r, hr, fun fault he => ?_, fun outcome he => ?_⟩
    · obtain ⟨hreply, _, hreported⟩ := conclude_of_interrupted hrf he
      rw [hreply, hreported, hrn]
      exact ⟨rfl, rfl⟩
    · obtain ⟨hreply, _, hreported⟩ := conclude_of_evaluation hrf he
      rw [hreply, hreported, hrn, answer, hra]
      exact ⟨rfl, rfl⟩

theorem finalized_of_settles (hf : f.finalized = false) (hc : c.Settles) (k : ChainId) :
    (f.call k c).1.finalized = true := by
  rcases call_of_settles hc f k with ⟨_, hcall⟩ | ⟨r, hr, hcall⟩ <;> rw [hcall]
  · simp [close, hf, report]
  · have hrf : r.finalized = false := (readied_finalized hr).trans hf
    cases he : r.evaluation with
    | error fault => exact (conclude_of_interrupted hrf he).2.1
    | ok outcome => exact (conclude_of_evaluation hrf he).2.1

/-! ### Settled families -/

theorem spent_of_finalized (hg : g.finalized = true) : g.Spent where
  finalized := hg
  rejected := by
    intro j c hfin hd
    obtain ⟨r, hr⟩ := readied_of_describable hfin hd g j
    have hrd : r.description = g.description := by rw [readied_shared hr]
    rw [call_of_readied hfin hr, conclude_of_finalized ((readied_finalized hr).trans hg), hrd]
    rfl
  refused := fun j c hd => call_of_indescribable hd g j
  closed := by
    rintro j c (hc | rfl)
    · rw [call_of_closes hc, close, if_pos hg]
      rfl
    · rfl

theorem built_self (h : 0 < f.members.length) : f.Built f :=
  ⟨rfl, f.members[0], f.members[0], List.getElem?_eq_getElem h, List.getElem?_eq_getElem h, rfl⟩

/-- **In a finalized family every call does at most what building calls do.** -/
theorem Built.late (h : f.Built g) (hg : g.finalized = true) (k : ChainId) (c : Call) :
    f.Built (g.call k c).1 := by
  by_cases hs : c.Settles
  · rcases call_of_settles hs g k with ⟨hc, _⟩ | ⟨r, hr, hcall⟩
    · rw [(spent_of_finalized hg).closed k c (.inl hc)]
      exact h
    · rw [hcall, conclude_of_finalized ((readied_finalized hr).trans hg)]
      exact h.readied hr
  · rcases call_of_not_settles hs g k with hb | he
    · exact h.call hb
    · rw [he]
      exact h

theorem Reached.built_of_finalized (hm : 0 < f.members.length) (hf : f.finalized = true)
    (h : Reached (fun _ => True) f g) : f.Built g := by
  induction h with
  | start => exact built_self hm
  | call _ _ _ ih => exact ih.late (ih.finalized_eq.trans hf) _ _

theorem length_members_conclude (f : Family) : f.conclude.1.members.length = f.members.length := by
  rcases conclude_members f with he | he <;> rw [he]
  exact length_members_recordVisits ..

theorem length_members_of_settles (hc : c.Settles) (f : Family) (k : ChainId) :
    (f.call k c).1.members.length = f.members.length := by
  rcases call_of_settles hc f k with ⟨_, hcall⟩ | ⟨r, hr, hcall⟩ <;> rw [hcall]
  · rw [close_members]
  · rw [length_members_conclude]
    rcases readied_eq hr with rfl | ⟨s, rfl⟩
    · rfl
    · exact length_members_queueFor ..

/-- Once a call settled a family, all that can come of it is what building calls lead to. -/
theorem Reached.built_of_settles (hf : f.finalized = false) (hk : k < f.members.length)
    (hc : c.Settles) (h : Reached (fun _ => True) (f.call k c).1 g) :
    (f.call k c).1.Built g ∧ g.finalized = true := by
  have hfinalized := finalized_of_settles hf hc k
  have hmembers : 0 < (f.call k c).1.members.length := by
    rw [length_members_of_settles hc]
    exact Nat.zero_lt_of_lt hk
  have hbuilt := h.built_of_finalized hmembers hfinalized
  exact ⟨hbuilt, hbuilt.finalized_eq.trans hfinalized⟩

/-! ### The law -/

/-- Before a call settles it, a family reported nothing, and complains of calls only. -/
theorem fresh_of_reached {document : Document} {description : String} {limit : Int}
    {raising : Bool}
    (h : Reached (fun c => ¬ c.Settles) (start document description limit raising) f) :
    f.finalized = false ∧ f.reported = [] ∧ ∀ message ∈ f.misuse, '(' ∈ message.toList := by
  have hbuilt := h.builds.built (coherent_start document description limit raising)
  exact ⟨hbuilt.finalized_eq, hbuilt.reported_eq, h.builds.paren_of_misuse rfl⟩

theorem Settled.length_reported (h : f.Settled k c) (hc : c.Settles) :
    (f.call k c).1.reported.length ≤ 1 := by
  rcases hc with hc | ⟨hfin, _⟩
  · rw [h.closed hc]
    exact Nat.le_refl 1
  · obtain ⟨r, _, herror, hok⟩ := h.finalized hfin
    cases he : r.evaluation with
    | error fault => rw [(herror fault he).2]; exact Nat.zero_le 1
    | ok outcome => rw [(hok outcome he).2]; exact Nat.le_refl 1

/-- An outcome has the reason of a close iff a close reported it. -/
theorem Settled.reason_iff (h : f.Settled k c) (hc : c.Settles)
    (hm : ∀ message ∈ f.misuse, '(' ∈ message.toList) {outcome : Outcome}
    (ho : outcome ∈ (f.call k c).1.reported) :
    outcome.passed = false ∧ outcome.reason = notFinalized ↔ c.Closes := by
  rcases hc with hc | ⟨hfin, _⟩
  · rw [h.closed hc] at ho
    rw [List.mem_singleton.mp ho]
    exact ⟨fun _ => hc, fun _ => ⟨rfl, rfl⟩⟩
  · refine ⟨fun ⟨_, hreason⟩ => ?_, fun hc => absurd hfin hc.not_finalizes⟩
    obtain ⟨r, hr, herror, hok⟩ := h.finalized hfin
    have hrm : r.misuse = f.misuse := readied_misuse hr
    cases he : r.evaluation with
    | error fault =>
      rw [(herror fault he).2] at ho
      cases ho
    | ok given =>
      rw [(hok given he).2] at ho
      rw [List.mem_singleton.mp ho] at hreason
      exact absurd hreason (reason_ne_notFinalized (hrm ▸ hm) he)

/-- **One outcome for a family, ever.** Whatever calls were made on whatever members, at most one
outcome was reported. Before the first call that settles the family there is none. That call
reports the only one, unless it is a finalizer and a fault interrupts its run; from then on the
family is finalized, finalizers are rejected and closes do nothing. The outcome is a failure for
want of a finalizer iff that first call was a close. A finalizer whose count has no text is refused
in any family, and does nothing to it. -/
theorem one_outcome_ever {document : Document} {description : String} {limit : Int}
    {raising : Bool} (h : Reached (fun _ => True) (start document description limit raising) g) :
    g.reported.length ≤ 1 ∧
    (Reached (fun c => ¬ c.Settles) (start document description limit raising) g ∨
      ∃ f k c, Reached (fun c => ¬ c.Settles) (start document description limit raising) f ∧
        k < f.members.length ∧ c.Settles ∧ Reached (fun _ => True) (f.call k c).1 g) ∧
    (Reached (fun c => ¬ c.Settles) (start document description limit raising) g →
      g.finalized = false ∧ g.reported = []) ∧
    (∀ f k c, Reached (fun c => ¬ c.Settles) (start document description limit raising) f →
      k < f.members.length → c.Settles → Reached (fun _ => True) (f.call k c).1 g →
        f.Settled k c ∧ g.Spent ∧ g.reported = (f.call k c).1.reported ∧
          ∀ outcome ∈ g.reported,
            (outcome.passed = false ∧ outcome.reason = notFinalized ↔ c.Closes)) ∧
    ∀ j c, c.Indescribable → g.call j c = (g, .error (.tooManyDigits none)) := by
  have hsplit := h.first_settling
  refine ⟨?_, hsplit, fun hf => ?_, fun f k c hf hk hc hg => ?_,
    fun j c hd => call_of_indescribable hd g j⟩
  · rcases hsplit with hf | ⟨f, k, c, hf, hk, hc, hg⟩
    · rw [(fresh_of_reached hf).2.1]
      exact Nat.zero_le 1
    · obtain ⟨hfinalized, hreported, _⟩ := fresh_of_reached hf
      rw [(hg.built_of_settles hfinalized hk hc).1.reported_eq]
      exact (settled_of_settles hfinalized hreported hc k).length_reported hc
  · exact ⟨(fresh_of_reached hf).1, (fresh_of_reached hf).2.1⟩
  · obtain ⟨hfinalized, hreported, hparens⟩ := fresh_of_reached hf
    obtain ⟨hbuilt, hlate⟩ := hg.built_of_settles hfinalized hk hc
    have hsettled := settled_of_settles hfinalized hreported hc k
    refine ⟨hsettled, spent_of_finalized hlate, hbuilt.reported_eq, fun outcome ho => ?_⟩
    rw [hbuilt.reported_eq] at ho
    exact hsettled.reason_iff hc hparens ho

/-- A chain that was closed, and then verified. -/
theorem one_outcome_ever_of_close :
    ∃ f, Reached (fun _ => True) (start (.ofValue (.bool true)) "json document" 100 false) f ∧
      f.reported.length ≤ 1 ∧
      f.reported = [⟨"json document", false, notFinalized, [], [], none⟩] ∧
      (f.call 0 .verify).2 = .error (.alreadyFinalized "json document") := by
  let start₁ := start (.ofValue (.bool true)) "json document" 100 false
  have h : Reached (fun _ => True) start₁ (start₁.call 0 .close).1 :=
    .call .start (k := 0) (by decide) trivial
  obtain ⟨hone, _, _, hfirst, _⟩ := one_outcome_ever h
  obtain ⟨hsettled, hspent, -, -⟩ := hfirst start₁ 0 .close .start (by decide) (.inl trivial) .start
  refine ⟨_, h, hone, ?_, hspent.rejected 0 .verify trivial id⟩
  rw [hsettled.closed trivial]
  rfl

theorem indescribable_of_le {relation : Relation} {n : Int} (h : digitBound ≤ n.natAbs) :
    Call.Indescribable (.finish relation (.int n)) := by
  rintro ⟨text, htext⟩
  have htext : intText n = .ok text := htext
  rw [intText, if_neg (Nat.not_lt.mpr h)] at htext
  cases htext

/-- **Not every later finalizer is rejected, and not every first one settles.** Asked for a number
of candidates that has too many digits, a chain that was verified does not say that it was, and one
that was not finalized is not finalized then. -/
theorem late_count_not_rejected :
    let f := start (.ofValue (.bool true)) "json document" 100 false
    let g := (f.call 0 .verify).1
    let count : Call := .finish .exactly (.int digitBound)
    Reached (fun _ => True) f g ∧ g.finalized = true ∧
      (g.call 0 count).2 = .error (.tooManyDigits none) ∧
      (f.call 0 count).1.finalized = false ∧ (f.call 0 count).1.reported = [] := by
  intro f g count
  have hreached : Reached (fun _ => True) f g := .call .start (k := 0) (by decide) trivial
  have hcount : count.Indescribable := indescribable_of_le (Nat.le_of_eq (Int.natAbs_natCast _).symm)
  refine ⟨hreached, rfl, ?_, ?_, ?_⟩
  · rw [call_of_indescribable hcount]
  · rw [call_of_indescribable hcount]
    rfl
  · rw [call_of_indescribable hcount]
    rfl

end Family

end Attest

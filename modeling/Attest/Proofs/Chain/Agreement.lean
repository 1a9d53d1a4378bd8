import Attest.Proofs.Chain.Rejection
import Attest.Proofs.Step.Agreement

/-!
# Families that agree

Two families are made by the same calls on like documents, and one asks what they can still differ
in. The answer is an invariant: members, blocks and the stack are the same, the candidates of each
member are alike, its queue holds steps that agree, and its records have the same verdicts at every
level. Every call keeps two families in agreement and gives the same reply to both, or a fault of
the same class.

The invariant is proved along the evaluator, one lemma for each of its functions, and then for one
call. A run of calls is an induction on these. Nothing in it mentions what the limit of shown
values or the description is, so families may differ in both.

## Main definitions

* `Record.bare` — a record without its texts
* `Family.Agrees` — families that differ in texts and in like candidates only
* `Reply.Agrees` — replies that differ in texts only
* `Family.play`, `Family.strung` — several calls, on any members or strung together
* `Family.SameVerdicts` — the same verdicts at every level

## Main results

* `Family.Agrees.runMember` — members of families that agree are run alike
* `Family.Agrees.call` — a call keeps families in agreement, and gives them the same reply
* `Family.Agrees.play` — so does any number of calls
* `Family.diagnostics_idle` — what values are shown as has no influence on any verdict
-/

namespace Attest

variable {R : Value → Value → Prop} {known : Value → Prop}

/-! ### Verdicts at every level -/

mutual

/-- A record without its texts: the verdict, and those of the branches below it. -/
def Record.bare : Record → Record
  | .mk _ passed _ branches => .mk "" passed "" (bareBranches branches)

def bareBranches : List Branch → List Branch
  | [] => []
  | b :: rest => b.bare :: bareBranches rest

def Branch.bare : Branch → Branch
  | .mk passed records => .mk passed (bareRecords records)

/-- Records without their texts. -/
def bareRecords : List Record → List Record
  | [] => []
  | r :: rest => r.bare :: bareRecords rest

end

theorem passed_of_bare {r r' : Record} (h : r.bare = r'.bare) : r.passed = r'.passed := by
  cases r
  cases r'
  exact (Record.mk.inj h).2.1

theorem allPassed_of_bare : ∀ {rs rs' : List Record}, bareRecords rs = bareRecords rs' →
    allPassed rs = allPassed rs'
  | [], [], _ => rfl
  | r :: rs, r' :: rs', h => by
    obtain ⟨hr, hrs⟩ := List.cons.inj h
    have hrest : allPassed rs = allPassed rs' := allPassed_of_bare hrs
    simp only [allPassed, List.all_cons] at hrest ⊢
    rw [passed_of_bare hr, hrest]

theorem length_of_bare : ∀ {rs rs' : List Record}, bareRecords rs = bareRecords rs' →
    rs.length = rs'.length
  | [], [], _ => rfl
  | _ :: _, _ :: _, h => congrArg (· + 1) (length_of_bare (List.cons.inj h).2)

/-! ### Runs -/

/-- What was left of a member, but for texts. -/
structure Visit.Agrees (R : Value → Value → Prop) (v w : Visit) : Prop where
  member : v.member = w.member
  candidates : List.Forall₂ R v.candidates w.candidates
  records : bareRecords v.records = bareRecords w.records

/-- Runs that came equally far: they end at the same place, and with the same class of fault if
there is one. -/
structure Progress.Agrees (R : Value → Value → Prop) (p q : Progress) : Prop where
  candidates : List.Forall₂ R p.candidates q.candidates
  records : bareRecords p.records = bareRecords q.records
  fault : p.fault.map Fault.label = q.fault.map Fault.label
  visits : List.Forall₂ (Visit.Agrees R) p.visits q.visits

/-- Runs of alternatives that came equally far. -/
structure BlockProgress.Alike (R : Value → Value → Prop) (p q : BlockProgress) : Prop where
  branches : bareBranches p.branches = bareBranches q.branches
  survivors : List.Forall₂ (List.Forall₂ R) p.survivors q.survivors
  fault : p.fault.map Fault.label = q.fault.map Fault.label
  visits : List.Forall₂ (Visit.Agrees R) p.visits q.visits

/-- Evaluators that run members alike from like candidates. -/
def Evaluator.Agrees (R : Value → Value → Prop) (run run' : Evaluator) : Prop :=
  ∀ k vs ws, List.Forall₂ R vs ws → (run k vs).Agrees R (run' k ws)

/-- Entries that do the same to like candidates. -/
inductive Entry.Agrees (R : Value → Value → Prop) : Entry → Entry → Prop where
  | step {s t : Step} (h : s.Agrees R t) : Entry.Agrees R (.step s) (.step t)
  | block (b : Nat) : Entry.Agrees R (.block b) (.block b)

/-- Faults of one class on both sides, or on neither. -/
theorem fault_cases {x y : Option Fault} (h : x.map Fault.label = y.map Fault.label) :
    (x = none ∧ y = none) ∨
      ∃ fault fault', x = some fault ∧ y = some fault' ∧ fault.label = fault'.label := by
  cases x <;> cases y
  · exact .inl ⟨rfl, rfl⟩
  · cases h
  · cases h
  · exact .inr ⟨_, _, rfl, rfl, Option.some.inj h⟩

theorem Progress.Agrees.passed {p q : Progress} (h : p.Agrees R q) : p.passed = q.passed := by
  have hfault : p.fault.isNone = q.fault.isNone := by
    rcases fault_cases h.fault with ⟨hp, hq⟩ | ⟨_, _, hp, hq, _⟩
    all_goals rw [hp, hq]
    all_goals rfl
  rw [Progress.passed, Progress.passed, hfault, allPassed_of_bare h.records]

section Run

variable {run run' : Evaluator} (hrun : Evaluator.Agrees R run run')

include hrun

theorem Evaluator.Agrees.branches {vs ws : List Value} (hvs : List.Forall₂ R vs ws) :
    ∀ ks : List ChainId, (runBranches run vs ks).Alike R (runBranches run' ws ks)
  | [] => ⟨rfl, .nil, rfl, .nil⟩
  | k :: rest => by
    have hfirst := hrun k vs ws hvs
    have hothers := Evaluator.Agrees.branches hvs rest
    simp only [runBranches]
    rcases fault_cases hfirst.fault with ⟨hp, hq⟩ | ⟨fault, fault', hp, hq, hlabel⟩
    · rw [hp, hq]
      refine ⟨?_, ?_, hothers.fault, List.rel_append hfirst.visits hothers.visits⟩
      · simp only [bareBranches, Branch.bare, hfirst.passed, hfirst.records, hothers.branches]
      · show List.Forall₂ _ (if _ then _ else _) (if _ then _ else _)
        rw [hfirst.passed]
        split
        · exact .cons hfirst.candidates hothers.survivors
        · exact hothers.survivors
    · rw [hp, hq]
      exact ⟨rfl, .nil, congrArg some hlabel, hfirst.visits⟩

theorem Evaluator.Agrees.block (hR : Likeness R known) {vs ws : List Value}
    (hvs : List.Forall₂ R vs ws) (ks : List ChainId) :
    Agree (fun r r' => r.1.Agrees R r'.1 ∧ bareBranches r.2 = bareBranches r'.2)
        (runBlock run vs ks).1 (runBlock run' ws ks).1
      ∧ List.Forall₂ (Visit.Agrees R) (runBlock run vs ks).2 (runBlock run' ws ks).2 := by
  have h := hrun.branches hvs ks
  simp only [runBlock]
  rcases fault_cases h.fault with ⟨hp, hq⟩ | ⟨fault, fault', hp, hq, hlabel⟩
  · rw [hp, hq, isEmpty_eq_of_forall₂ h.survivors]
    dsimp only
    split
    · exact ⟨.ok ⟨⟨rfl, hvs⟩, h.branches⟩, h.visits⟩
    · have hunion := hR.unite h.survivors
      generalize unite (runBranches run vs ks).survivors = x at hunion ⊢
      generalize unite (runBranches run' ws ks).survivors = y at hunion ⊢
      cases hunion with
      | ok hmerged => exact ⟨.ok ⟨⟨rfl, hmerged⟩, h.branches⟩, h.visits⟩
      | error hlabel => exact ⟨.error hlabel, h.visits⟩
  · rw [hp, hq]
    exact ⟨.error hlabel, h.visits⟩

variable (branchesOf : Nat → List ChainId)

theorem Evaluator.Agrees.entry (hR : Likeness R known) {vs ws : List Value}
    (hvs : List.Forall₂ R vs ws) {e e' : Entry} (he : e.Agrees R e') :
    Agree (fun r r' => r.1.Agrees R r'.1 ∧ r.2.bare = r'.2.bare)
        (runEntry run branchesOf vs e).1 (runEntry run' branchesOf ws e').1
      ∧ List.Forall₂ (Visit.Agrees R) (runEntry run branchesOf vs e).2
        (runEntry run' branchesOf ws e').2 := by
  cases he with
  | step h =>
    refine ⟨(h vs ws hvs).map fun ran ran' hran => ⟨hran, ?_⟩, .nil⟩
    simp only [Record.bare, hran.passed]
  | block b =>
    obtain ⟨hresult, hvisits⟩ := hrun.block hR hvs (branchesOf b)
    refine ⟨hresult.map fun r r' hr => ⟨hr.1, ?_⟩, hvisits⟩
    simp only [Record.bare, hr.1.passed, hr.2]

/-- **Queues that agree are run alike,** up to the same entry. -/
theorem Evaluator.Agrees.queue (hR : Likeness R known) {queue queue' : List Entry}
    {vs ws : List Value} (hqueue : List.Forall₂ (Entry.Agrees R) queue queue')
    (hvs : List.Forall₂ R vs ws) :
    (runQueue run branchesOf queue vs).Agrees R (runQueue run' branchesOf queue' ws) := by
  induction hqueue generalizing vs ws with
  | nil => exact ⟨hvs, rfl, rfl, .nil⟩
  | @cons entry entry' rest rest' he _ ih =>
    obtain ⟨hresult, hvisits⟩ := hrun.entry branchesOf hR hvs he
    rw [runQueue, runQueue]
    generalize runEntry run branchesOf vs entry = r at hresult hvisits ⊢
    generalize runEntry run' branchesOf ws entry' = r' at hresult hvisits ⊢
    obtain ⟨result, visits⟩ := r
    obtain ⟨result', visits'⟩ := r'
    cases hresult with
    | error hlabel => exact ⟨hvs, rfl, congrArg some hlabel, hvisits⟩
    | ok hran =>
      have hlast := ih hran.1.candidates
      refine ⟨hlast.candidates, ?_, hlast.fault, List.rel_append hvisits hlast.visits⟩
      simp only [bareRecords, hran.2, hlast.records]

end Run

/-! ### Families -/

/-- Members that differ in texts and in like candidates only. -/
structure Member.Agrees (R : Value → Value → Prop) (m n : Member) : Prop where
  parent : m.parent = n.parent
  depth : m.depth = n.depth
  candidates : List.Forall₂ R m.candidates n.candidates
  queue : List.Forall₂ (Entry.Agrees R) m.queue n.queue
  records : bareRecords m.records = bareRecords n.records

/-- Families that differ in texts and in like candidates only. -/
structure Family.Agrees (R : Value → Value → Prop) (f g : Family) : Prop where
  root : R f.document.root g.document.root
  valid : f.document.isValid = g.document.isValid
  raising : f.raising = g.raising
  members : List.Forall₂ (Member.Agrees R) f.members g.members
  blocks : f.blocks = g.blocks
  openBlocks : f.openBlocks = g.openBlocks
  misuse : f.misuse = g.misuse
  finalized : f.finalized = g.finalized
  reported : f.reported.map Outcome.passed = g.reported.map Outcome.passed

/-- What is read off two related elements, or off none on both sides. -/
theorem optionRel_getD {α β γ δ : Type} {rel : α → β → Prop} {rel' : γ → δ → Prop} {x : Option α}
    {y : Option β} (hxy : Option.Rel rel x y) {read : α → γ} {read' : β → δ} {c : γ} {d : δ}
    (hread : ∀ a b, rel a b → rel' (read a) (read' b)) (hnone : rel' c d) :
    rel' ((x.map read).getD c) ((y.map read').getD d) := by
  cases hxy with
  | none => exact hnone
  | some hab => exact hread _ _ hab

theorem forall₂_modify {α β : Type} {rel : α → β → Prop} {change : α → α} {change' : β → β}
    (hchange : ∀ a b, rel a b → rel (change a) (change' b)) : ∀ {l : List α} {l' : List β},
    List.Forall₂ rel l l' → ∀ k, List.Forall₂ rel (l.modify k change) (l'.modify k change')
  | _, _, .nil, k => by simp
  | _, _, .cons hab hrest, 0 => .cons (hchange _ _ hab) hrest
  | _, _, .cons hab hrest, k + 1 => by
    rw [List.modify_succ_cons, List.modify_succ_cons]
    exact .cons hab (forall₂_modify hchange hrest k)

namespace Family

variable {f g : Family}

theorem agrees_start (document : Document) {document' : Document} (description description' : String)
    (limit limit' : Int) (raising : Bool) (hroot : R document.root document'.root)
    (hvalid : document.isValid = document'.isValid) :
    (start document description limit raising).Agrees R
      (start document' description' limit' raising) where
  root := hroot
  valid := hvalid
  raising := rfl
  members := by
    refine .cons ⟨rfl, rfl, ?_, .nil, rfl⟩ .nil
    dsimp only
    rw [hvalid]
    split
    · exact .cons hroot .nil
    · exact .nil
  blocks := rfl
  openBlocks := rfl
  misuse := rfl
  finalized := rfl
  reported := rfl

section

variable (h : f.Agrees R g)

include h

theorem Agrees.member? (k : ChainId) :
    Option.Rel (Member.Agrees R) (f.member? k) (g.member? k) :=
  forall₂_getElem? h.members k

theorem Agrees.branchesOf : f.branchesOf = g.branchesOf := by
  funext b
  rw [Family.branchesOf, Family.branchesOf, h.blocks]

theorem Agrees.queueOf (k : ChainId) :
    List.Forall₂ (Entry.Agrees R) (f.queueOf k) (g.queueOf k) :=
  optionRel_getD (h.member? k) (fun _ _ hm => hm.queue) .nil

/-- **Members of families that agree are run alike.** -/
theorem Agrees.runMember (hR : Likeness R known) : ∀ depth,
    Evaluator.Agrees R (runMember f depth) (runMember g depth)
  | 0 => fun k vs ws hvs => ⟨hvs, rfl, rfl, .cons ⟨rfl, hvs, rfl⟩ .nil⟩
  | depth + 1 => by
    intro k vs ws hvs
    have hrun : (runQueue (Attest.runMember f depth) f.branchesOf (f.queueOf k) vs).Agrees R
        (runQueue (Attest.runMember g depth) f.branchesOf (g.queueOf k) ws) :=
      (Agrees.runMember hR depth).queue f.branchesOf hR (h.queueOf k) hvs
    simp only [Attest.runMember, ← h.branchesOf]
    refine ⟨hrun.candidates, hrun.records, hrun.fault, ?_⟩
    exact List.rel_append hrun.visits (.cons ⟨rfl, hrun.candidates, hrun.records⟩ .nil)

theorem Agrees.modifyMember {change change' : Member → Member}
    (hchange : ∀ m n, Member.Agrees R m n → Member.Agrees R (change m) (change' n)) (k : ChainId) :
    (f.modifyMember k change).Agrees R (g.modifyMember k change') where
  __ := h
  members := forall₂_modify hchange h.members k

theorem Agrees.queueFor {e e' : Entry} (he : e.Agrees R e') (k : ChainId) :
    (f.queueFor k e).Agrees R (g.queueFor k e') := by
  refine h.modifyMember (fun m n hm => ?_) k
  exact { hm with queue := List.rel_append hm.queue (.cons he .nil) }

theorem Agrees.branchOff (owner : ChainId) : (f.branchOff owner).Agrees R (g.branchOff owner) where
  __ := h
  members := by
    refine List.rel_append h.members (.cons ⟨rfl, congrArg (· + 1) ?_, .nil, .nil, rfl⟩ .nil)
    exact optionRel_getD (h.member? owner) (fun _ _ hm => hm.depth) rfl

theorem Agrees.noteMisuse (message : String) :
    (f.noteMisuse message).Agrees R (g.noteMisuse message) where
  __ := h
  misuse := by simp only [Family.noteMisuse, h.misuse]

/-! ### Blocks -/

theorem Agrees.openBlock (k : ChainId) :
    (f.openBlock k).1.Agrees R (g.openBlock k).1 ∧ (f.openBlock k).2 = (g.openBlock k).2 := by
  have hlength := h.members.length_eq
  refine ⟨{ h.branchOff k with blocks := ?_, openBlocks := ?_ }, hlength⟩
  · simp only [Family.openBlock, h.blocks, hlength]
  · simp only [Family.openBlock, h.blocks, h.openBlocks]

theorem Agrees.nextBranch (k : ChainId) :
    (f.nextBranch k).1.Agrees R (g.nextBranch k).1 ∧ (f.nextBranch k).2 = (g.nextBranch k).2 := by
  have hlength := h.members.length_eq
  simp only [Family.nextBranch, h.openBlocks, h.blocks, hlength]
  cases g.openBlocks with
  | nil => exact ⟨h.noteMisuse _, rfl⟩
  | cons block rest => exact ⟨{ h.branchOff _ with blocks := rfl }, rfl⟩

theorem Agrees.closeBlock (k : ChainId) :
    (f.closeBlock k).1.Agrees R (g.closeBlock k).1 ∧ (f.closeBlock k).2 = (g.closeBlock k).2 := by
  have hpopped (rest : List Nat) :
      Family.Agrees R { f with openBlocks := rest } { g with openBlocks := rest } :=
    { h with openBlocks := rfl }
  have howner (b : Nat) : ((f.blocks[b]?).map Block.owner).getD 0
      = ((g.blocks[b]?).map Block.owner).getD 0 := by rw [h.blocks]
  simp only [Family.closeBlock, h.openBlocks, howner]
  cases g.openBlocks with
  | nil => exact ⟨h.noteMisuse _, rfl⟩
  | cons block rest => exact ⟨(hpopped rest).queueFor (.block block) _, rfl⟩

/-! ### Conclusions -/

theorem Agrees.problems : f.problems = g.problems := by
  rw [Family.problems, Family.problems, h.misuse, h.openBlocks]

theorem Agrees.finalize : Family.Agrees R { f with finalized := true }
    { g with finalized := true } where
  __ := h
  finalized := rfl

theorem Agrees.recordVisits {visits visits' : List Visit}
    (hvisits : List.Forall₂ (Visit.Agrees R) visits visits') :
    (f.recordVisits visits).Agrees R (g.recordVisits visits') := by
  induction hvisits generalizing f g with
  | nil => exact h
  | cons hv _ ih =>
    refine ih ?_
    dsimp only
    rw [hv.member]
    refine h.modifyMember (fun m n hm => ?_) _
    exact { hm with candidates := hv.candidates, records := hv.records }

theorem Agrees.ran {p q : Progress} (hp : p.Agrees R q) : (f.ran p).Agrees R (g.ran q) :=
  h.finalize.recordVisits hp.visits

theorem Agrees.run (hR : Likeness R known) : Evaluator.Agrees R f.run g.run := by
  rw [Family.run, Family.run, ← h.members.length_eq]
  exact h.runMember hR f.members.length

theorem Agrees.startCandidates : List.Forall₂ R f.startCandidates g.startCandidates :=
  optionRel_getD (h.member? 0) (fun _ _ hm => hm.candidates) .nil

theorem Agrees.outcomeOf (hR : Likeness R known) {p q : Progress} (hp : p.Agrees R q) :
    Agree (fun o o' => o.passed = o'.passed) (f.outcomeOf p) (g.outcomeOf q) := by
  have hshown (v w : Value) (hvw : R v w) := hR.excerpt hvw f.limit g.limit
  refine (agree_mapM hshown hp.candidates).bind fun texts texts' _ => .ok ?_
  dsimp only
  rw [h.problems, allPassed_of_bare hp.records]

theorem Agrees.report {o o' : Outcome} (ho : o.passed = o'.passed) :
    (f.report o).1.Agrees R (g.report o').1
      ∧ Agree (fun _ _ => True) (f.report o).2 (g.report o').2 := by
  constructor
  · refine { h with reported := ?_ }
    simp only [Family.report, List.map_append, h.reported, List.map_cons, ho, List.map_nil]
  · simp only [Family.report, h.raising, ho]
    split
    · exact .error rfl
    · exact .ok trivial

/-- **Families that agree come to one verdict,** or to faults of one class. -/
theorem Agrees.conclude (hR : Likeness R known) :
    f.conclude.1.Agrees R g.conclude.1 ∧ Agree Eq f.conclude.2 g.conclude.2 := by
  cases hf : f.finalized with
  | true =>
    rw [conclude_of_finalized hf, conclude_of_finalized (h.finalized ▸ hf)]
    exact ⟨h, .error rfl⟩
  | false =>
    have hg : g.finalized = false := h.finalized ▸ hf
    have hvalid := h.valid
    rw [Document.isValid, Document.isValid] at hvalid
    cases hv : f.document.problem with
    | some problem =>
      rw [hv] at hvalid
      obtain ⟨problem', hv'⟩ : ∃ problem', g.document.problem = some problem' :=
        Option.isSome_iff_exists.mp (by simpa using hvalid)
      let o : Outcome :=
        { description := f.description, passed := false, reason := "invalid JSON: " ++ problem }
      let o' : Outcome :=
        { description := g.description, passed := false, reason := "invalid JSON: " ++ problem' }
      have ho : o.passed = o'.passed := rfl
      obtain ⟨hfamily, hsent⟩ := h.finalize.report ho
      simp only [Family.conclude, hf, hg, hv, hv', Bool.false_eq_true, if_false]
      exact ⟨hfamily, hsent.map fun _ _ _ => rfl⟩
    | none =>
      rw [hv] at hvalid
      have hv' : g.document.problem = none := by simpa using hvalid
      have hrun := h.run hR 0 _ _ h.startCandidates
      rcases fault_cases hrun.fault with ⟨hp, hq⟩ | ⟨fault, fault', hp, hq, hlabel⟩
      · have houtcome := h.outcomeOf hR hrun
        generalize hx : f.outcomeOf (f.run 0 f.startCandidates) = x at houtcome
        generalize hy : g.outcomeOf (g.run 0 g.startCandidates) = y at houtcome
        cases houtcome with
        | ok ho =>
          rw [conclude_of_outcome hf hv hp hx, conclude_of_outcome hg hv' hq hy]
          refine ⟨{ h.ran hrun with reported := ?_ }, ?_⟩
          · simp only [List.map_append, h.reported, List.map_cons, ho, List.map_nil]
          · dsimp only
            rw [h.raising, ho]
            split
            · exact .error rfl
            · exact .ok rfl
        | error hlabel =>
          rw [conclude_of_hidden hf hv hp hx, conclude_of_hidden hg hv' hq hy]
          exact ⟨h.ran hrun, .error hlabel⟩
      · rw [conclude_of_fault hf hv hp, conclude_of_fault hg hv' hq]
        exact ⟨h.ran hrun, .error hlabel⟩

theorem Agrees.close :
    f.close.1.Agrees R g.close.1 ∧ Agree (fun _ _ => True) f.close.2 g.close.2 := by
  simp only [Family.close, h.finalized]
  split
  · exact ⟨h, .ok trivial⟩
  · exact h.finalize.report rfl

end

end Family

/-! ### Calls -/

/-- Replies that differ in texts only. -/
def Reply.Agrees : Reply → Reply → Prop
  | .chain k, .chain j => k = j
  | .verdict passed, .verdict passed' => passed = passed'
  | .text _, .text _ | .nothing, .nothing => True
  | _, _ => False

/-- A call that respects a likeness, because the operation that it queues does. -/
def Call.Fits (R : Value → Value → Prop) (known : Value → Prop) : Call → Prop
  | .queue operation => operation.Fits R known
  | _ => True

/-- Every call respects equality. -/
theorem Call.fits_eq (c : Call) : c.Fits Eq fun _ => True := by
  cases c with
  | queue operation =>
    cases operation with
    | select => exact ⟨fun _ _ => id, fun _ _ _ _ _ _ _ _ => rfl⟩
    | mustSatisfy => exact fun _ _ => id
    | matching => exact fun _ _ => trivial
    | mustContain | mustNotContain => exact fun _ _ => trivial
    | _ => trivial
  | _ => trivial

namespace Family

variable {f g : Family}

/-- **A call keeps families in agreement,** and gives both the same reply or the same class of
fault. -/
theorem Agrees.call (hR : Likeness R known) (h : f.Agrees R g) (k : ChainId) {c : Call}
    (hc : c.Fits R known) :
    (f.call k c).1.Agrees R (g.call k c).1
      ∧ Agree Reply.Agrees (f.call k c).2 (g.call k c).2 := by
  cases c with
  | queue operation =>
    have hstep := hR.step hc h.root f.limit g.limit
    simp only [Family.call, perform]
    generalize operation.step f.document.root f.limit = x at hstep ⊢
    generalize operation.step g.document.root g.limit = y at hstep ⊢
    cases hstep with
    | ok hstep => exact ⟨h.queueFor (.step hstep) k, .ok rfl⟩
    | error hlabel => exact ⟨h, .error hlabel⟩
  | openBlock => exact ⟨(h.openBlock k).1, .ok (h.openBlock k).2⟩
  | nextBranch => exact ⟨(h.nextBranch k).1, .ok (h.nextBranch k).2⟩
  | closeBlock => exact ⟨(h.closeBlock k).1, .ok (h.closeBlock k).2⟩
  | verify =>
    obtain ⟨hfamily, hverdict⟩ := h.conclude hR
    exact ⟨hfamily, hverdict.map fun _ _ he => he⟩
  | finish relation n =>
    have hstep : Agree (Step.Agrees R) (Step.count relation n) (Step.count relation n) :=
      count_agree relation n
    simp only [Family.call]
    generalize Step.count relation n = x at hstep ⊢
    cases hstep with
    | ok hstep =>
      obtain ⟨hfamily, hverdict⟩ := (h.queueFor (.step hstep) k).conclude hR
      exact ⟨hfamily, hverdict.map fun _ _ he => he⟩
    | error hlabel => exact ⟨h, .error hlabel⟩
  | trace => exact ⟨h, .ok trivial⟩
  | close => exact ⟨h.close.1, h.close.2.map fun _ _ _ => trivial⟩
  | enter => exact ⟨h, .ok rfl⟩
  | exit propagating =>
    cases propagating with
    | true => exact ⟨h, .ok trivial⟩
    | false => exact ⟨h.close.1, h.close.2.map fun _ _ _ => trivial⟩

/-- Several calls, each on a member of its own: the family after them, and the reply to each. -/
def play (f : Family) : List (ChainId × Call) → Family × List (Except Fault Reply)
  | [] => (f, [])
  | (k, c) :: rest =>
    let (g, reply) := f.call k c
    let (h, replies) := g.play rest
    (h, reply :: replies)

/-- **Any number of calls keeps families in agreement.** -/
theorem Agrees.play (hR : Likeness R known) : ∀ {calls : List (ChainId × Call)} {f g : Family},
    f.Agrees R g → (∀ call ∈ calls, call.2.Fits R known) →
      (f.play calls).1.Agrees R (g.play calls).1
        ∧ List.Forall₂ (Agree Reply.Agrees) (f.play calls).2 (g.play calls).2
  | [], _, _, h, _ => ⟨h, .nil⟩
  | (k, c) :: rest, f, g, h, hcalls => by
    obtain ⟨hcall, hreply⟩ := h.call hR k (hcalls (k, c) List.mem_cons_self)
    obtain ⟨hlast, hreplies⟩ :=
      Agrees.play hR hcall fun call hmem => hcalls call (List.mem_cons_of_mem _ hmem)
    exact ⟨hlast, .cons hreply hreplies⟩

/-- The chain that is at hand after a call on a chain: the one that the call gave, and the same one
if it gave none. -/
def nextChain (k : ChainId) : Except Fault Reply → ChainId
  | .ok (.chain j) => j
  | _ => k

/-- Calls strung together, each made on the chain that is at hand after the one before. -/
def strung (f : Family) (k : ChainId) : List Call → Family × List (Except Fault Reply)
  | [] => (f, [])
  | c :: rest =>
    let (g, reply) := f.call k c
    let (h, replies) := g.strung (nextChain k reply) rest
    (h, reply :: replies)

theorem strung_cons (f : Family) (k : ChainId) (c : Call) (rest : List Call) :
    f.strung k (c :: rest)
      = (((f.call k c).1.strung (nextChain k (f.call k c).2) rest).1,
        (f.call k c).2 :: ((f.call k c).1.strung (nextChain k (f.call k c).2) rest).2) := rfl

/-- **Calls strung together keep families in agreement:** they are made on the same chains. -/
theorem Agrees.strung (hR : Likeness R known) : ∀ {calls : List Call} {f g : Family} {k : ChainId},
    f.Agrees R g → (∀ c ∈ calls, c.Fits R known) →
      (f.strung k calls).1.Agrees R (g.strung k calls).1
        ∧ List.Forall₂ (Agree Reply.Agrees) (f.strung k calls).2 (g.strung k calls).2
  | [], _, _, _, h, _ => ⟨h, .nil⟩
  | c :: rest, f, g, k, h, hcalls => by
    obtain ⟨hcall, hreply⟩ := h.call hR k (hcalls c List.mem_cons_self)
    have hnext : nextChain k (f.call k c).2 = nextChain k (g.call k c).2 := by
      generalize (f.call k c).2 = reply at hreply ⊢
      generalize (g.call k c).2 = reply' at hreply ⊢
      cases hreply with
      | error => rfl
      | @ok r r' hr => cases r <;> cases r' <;> first | exact hr | rfl | exact hr.elim
    rw [strung_cons, strung_cons, ← hnext]
    obtain ⟨hlast, hreplies⟩ :=
      Agrees.strung hR hcall fun c' hmem => hcalls c' (List.mem_cons_of_mem _ hmem)
    exact ⟨hlast, .cons hreply hreplies⟩

/-! ### Verdicts -/

/-- Families with the same verdicts: those of every step at every level, of every member, and of
every outcome that was reported. -/
structure SameVerdicts (f g : Family) : Prop where
  records : f.members.map (fun m => bareRecords m.records)
    = g.members.map fun m => bareRecords m.records
  passed : ∀ k, f.memberPassed k = g.memberPassed k
  reported : f.reported.map Outcome.passed = g.reported.map Outcome.passed

theorem Agrees.memberPassed (h : f.Agrees R g) (k : ChainId) :
    f.memberPassed k = g.memberPassed k := by
  have hmember := h.member? k
  rw [Family.memberPassed, Family.memberPassed]
  generalize f.member? k = m at hmember ⊢
  generalize g.member? k = n at hmember ⊢
  cases hmember with
  | none => rfl
  | some hmember =>
    dsimp only
    rw [length_of_bare hmember.records, hmember.queue.length_eq, allPassed_of_bare hmember.records]

theorem Agrees.sameVerdicts (h : f.Agrees R g) : f.SameVerdicts g where
  records := by
    rw [← List.forall₂_eq_eq_eq, List.forall₂_map_left_iff, List.forall₂_map_right_iff]
    exact h.members.imp fun m n hm => hm.records
  passed := h.memberPassed
  reported := h.reported

/-- **Diagnostics never influence a verdict.** Two chains on one document, whatever they are called
and however much of a value they show, answer any calls alike: with one verdict, or with faults of
one class at the same call. Every member is left with the same candidates, and every step at every
level with the same verdict; only texts differ. -/
theorem diagnostics_idle (document : Document) (description description' : String)
    (limit limit' : Int) (raising : Bool) (calls : List (ChainId × Call)) :
    let p := (start document description limit raising).play calls
    let q := (start document description' limit' raising).play calls
    List.Forall₂ (Agree Reply.Agrees) p.2 q.2
      ∧ p.1.members.map Member.candidates = q.1.members.map Member.candidates
      ∧ p.1.SameVerdicts q.1 := by
  intro p q
  have hstart : (start document description limit raising).Agrees Eq
      (start document description' limit' raising) :=
    agrees_start document description description' limit limit' raising rfl rfl
  have hcalls : ∀ call ∈ calls, call.2.Fits Eq fun _ => True := fun call _ => call.2.fits_eq
  obtain ⟨hfamily, hreplies⟩ := hstart.play likeness_eq hcalls
  refine ⟨hreplies, ?_, hfamily.sameVerdicts⟩
  rw [← List.forall₂_eq_eq_eq, List.forall₂_map_left_iff, List.forall₂_map_right_iff]
  exact hfamily.members.imp fun m n hm => List.forall₂_eq_eq_eq ▸ hm.candidates

end Family

end Attest

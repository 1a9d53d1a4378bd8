import Attest.Proofs.Chain.Reported
import Attest.Proofs.Chain.Verdict
import Attest.Proofs.Step.Wording

/-!
# Values in diagnostics

What an outcome shows are its candidates and the lines of its trace. Every line is the label of an
alternative, the count of a block, or the description and a message of a step, and every step was
made by an operation. So what `Operation.wording` says of operations holds of all that is reported.

Candidates are cut to the limit of the chain. So are the values in the texts of those operations
that heed it; the other texts are the ones that this limit gives only if it is the one used instead,
or nothing had to be cut.

## Main definitions

* `Family.Stocked` — every step that was queued is that of an operation
* `Family.Line`, `Family.Lined` — the lines that a trace can have, and records that have only those

## Main results

* `Family.Stocked.lined` — the lines of what a run leaves
* `Family.outcome_of_reached` — where the outcomes come from
* `Family.values_shown` — the limits that the values of an outcome are cut to
-/

namespace Attest

namespace Family

variable {f g r : Family} {k : ChainId} {c : Call} {root : Value} {limit : Int}

/-! ### Queues -/

/-- Every step that was queued is that of an operation. -/
def Stocked (f : Family) : Prop :=
  ∀ k s, .step s ∈ f.queueOf k → ∃ o : Operation, o.step f.document.root f.limit = .ok s

theorem Stocked.of_queues (h : f.Stocked) (hd : g.document = f.document) (hl : g.limit = f.limit)
    (hq : ∀ k s, .step s ∈ g.queueOf k → .step s ∈ f.queueOf k) : g.Stocked := by
  intro k s hs
  rw [hd, hl]
  exact h k s (hq k s hs)

theorem stocked_start (document : Document) (description : String) (limit : Int) (raising : Bool) :
    (start document description limit raising).Stocked := by
  intro k s hs
  obtain ⟨m, hm, hs⟩ := mem_queueOf.mp hs
  rw [List.mem_singleton.mp (List.mem_of_getElem? hm)] at hs
  cases hs

theorem Stocked.queueStep (h : f.Stocked) {o : Operation} {s : Step}
    (hs : o.step f.document.root f.limit = .ok s) : (f.queueFor k (.step s)).Stocked := by
  intro j t ht
  rcases mem_queueOf_queueFor ht with hold | hnew
  · exact h j t hold
  · cases hnew
    exact ⟨o, hs⟩

theorem Stocked.call (h : f.Stocked) (hc : c.Builds) : (f.call k c).1.Stocked := by
  cases c with
  | queue operation =>
    simp only [Family.call, perform]
    cases hs : operation.step f.document.root f.limit with
    | error fault => exact h
    | ok s => exact h.queueStep hs
  | openBlock => exact h.of_queues rfl rfl fun j s hs => mem_queueOf_branchOff hs
  | nextBranch =>
    simp only [Family.call, Family.nextBranch]
    split
    · exact h
    · exact h.of_queues rfl rfl fun j s hs => mem_queueOf_branchOff hs
  | closeBlock =>
    simp only [Family.call, Family.closeBlock]
    split
    · exact h
    · refine h.of_queues rfl rfl fun j s hs => ?_
      rcases mem_queueOf_queueFor hs with hold | hnew
      · exact hold
      · cases hnew
  | verify | finish | trace | close | enter | exit => exact hc.elim

theorem Stocked.readied (h : f.Stocked) (hr : f.readied k c = .ok r) : r.Stocked := by
  cases c with
  | finish relation n =>
    obtain ⟨s, hs, rfl⟩ := map_eq_ok hr
    exact h.queueStep (o := .count relation n) hs
  | verify | queue | openBlock | nextBranch | closeBlock | trace | close | enter | exit =>
    cases hr
    exact h

theorem Reached.stocked (hf : f.Stocked) (h : Reached Call.Builds f g) : g.Stocked := by
  induction h with
  | start => exact hf
  | call _ _ hc ih => exact ih.call hc

/-! ### Lines -/

/-- The lines that a trace can have, for the root of a document and the limit of a chain. -/
inductive Line (root : Value) (limit : Int) : String → Prop where
  | alternative (level : Nat) (passed first : Bool) :
      Line root limit (indent level ++ Outcome.icon passed ++ " " ++ branchLabel first)
  | noneOf (level branches : Nat) : Line root limit (indent level ++ Outcome.icon false ++ " "
      ++ "either" ++ ": " ++ s!"none of {branches} branches passed")
  | someOf (level survivors branches : Nat) : Line root limit (indent level ++ Outcome.icon true
      ++ " " ++ "either" ++ ": " ++ s!"{survivors} of {branches} branches passed")
  | step (level : Nat) {o : Operation} {s : Step} {vs : List Value} {ran : Ran} :
      o.step root limit = .ok s → s.run vs = .ok ran →
        Line root limit (indent level ++ Outcome.icon ran.passed ++ " " ++ s.description ++ ": "
          ++ ran.message)

/-- All lines of some records are such lines, at whatever level. -/
def Lined (root : Value) (limit : Int) (records : List Record) : Prop :=
  ∀ level, ∀ line ∈ trace level records, Line root limit line

theorem line_of_runBranches {run : Evaluator} {vs : List Value} : ∀ {ks : List ChainId},
    (∀ k ∈ ks, Lined root limit (run k vs).records) → ∀ level first,
      ∀ line ∈ branchLines level first (runBranches run vs ks).branches, Line root limit line
  | [], _, _, _, _, hl => absurd hl List.not_mem_nil
  | k :: rest, h, level, first, line, hl => by
    rw [runBranches] at hl
    split at hl
    · cases hl
    · rw [branchLines, Branch.lines] at hl
      rcases List.mem_append.mp hl with hl | hl
      · rcases List.mem_cons.mp hl with rfl | hl
        · exact .alternative ..
        · exact h k List.mem_cons_self (level + 1) line hl
      · exact line_of_runBranches (fun j hj => h j (List.mem_cons_of_mem _ hj)) level false line hl

theorem lined_of_runEntry {run : Evaluator} {branchesOf : Nat → List ChainId} {vs : List Value}
    {entry : Entry} {ran : Ran} {record : Record} {visits : List Visit}
    (hrun : ∀ k vs, Lined root limit (run k vs).records)
    (hsteps : ∀ s, entry = .step s → ∃ o : Operation, o.step root limit = .ok s)
    (h : runEntry run branchesOf vs entry = (.ok (ran, record), visits)) :
    ∀ level, ∀ line ∈ record.lines level, Line root limit line := by
  intro level line hl
  cases entry with
  | step s =>
    obtain ⟨o, hs⟩ := hsteps s rfl
    simp only [runEntry, Prod.mk.injEq] at h
    obtain ⟨ran', hran, he⟩ := map_eq_ok h.1
    cases he
    rw [List.mem_singleton.mp hl]
    exact .step level hs hran
  | block b =>
    simp only [runEntry_block, Prod.mk.injEq] at h
    obtain ⟨⟨ran', branches⟩, hran, he⟩ := map_eq_ok h.1
    cases he
    have hbelow : ∀ level first, ∀ line ∈ branchLines level first
        (runBranches run vs (branchesOf b)).branches, Line root limit line :=
      line_of_runBranches fun k _ => hrun k vs
    simp only [runBlock] at hran
    split at hran
    · cases hran
    · split at hran
      · cases hran
        rcases List.mem_cons.mp hl with rfl | hl
        · exact .noneOf ..
        · exact hbelow _ _ line hl
      · split at hran
        · cases hran
        · cases hran
          rcases List.mem_cons.mp hl with rfl | hl
          · exact .someOf ..
          · exact hbelow _ _ line hl

theorem lined_of_runQueue {run : Evaluator} {branchesOf : Nat → List ChainId}
    (hrun : ∀ k vs, Lined root limit (run k vs).records) :
    ∀ {queue : List Entry} {vs : List Value},
      (∀ s, .step s ∈ queue → ∃ o : Operation, o.step root limit = .ok s) →
        Lined root limit (runQueue run branchesOf queue vs).records
  | [], _, _, _, _, hl => absurd hl List.not_mem_nil
  | entry :: rest, vs, hsteps, level, line, hl => by
    rw [runQueue] at hl
    split at hl
    · cases hl
    · next ran record visits he =>
      rcases List.mem_append.mp hl with hl | hl
      · exact lined_of_runEntry hrun (fun s hs => hsteps s (hs ▸ List.mem_cons_self)) he level line
          hl
      · exact lined_of_runQueue hrun (fun s hs => hsteps s (List.mem_cons_of_mem _ hs)) level line
          hl

/-- **The lines of what a run leaves.** By induction on the depth that the run is allowed. -/
theorem Stocked.lined (h : f.Stocked) : ∀ depth k vs,
    Lined f.document.root f.limit (runMember f depth k vs).records
  | 0, _, _, _, _, hl => absurd hl List.not_mem_nil
  | depth + 1, k, _, level, line, hl =>
    lined_of_runQueue (h.lined depth) (fun s hs => h k s hs) level line hl

/-! ### Outcomes -/

theorem exists_of_mapM {α β : Type} {g : α → Except Fault β} {b : β} : ∀ {l : List α} {bs : List β},
    l.mapM g = .ok bs → b ∈ bs → ∃ a ∈ l, g a = .ok b
  | [], _, h, hb => by
    cases h
    cases hb
  | a :: l, _, h, hb => by
    rw [List.mapM_cons] at h
    obtain ⟨first, hfirst, h⟩ := bind_eq_ok h
    obtain ⟨rest, hrest, h⟩ := bind_eq_ok h
    cases h
    rcases List.mem_cons.mp hb with rfl | hb
    · exact ⟨a, List.mem_cons_self, hfirst⟩
    · obtain ⟨a', ha', he⟩ := exists_of_mapM hrest hb
      exact ⟨a', List.mem_cons_of_mem _ ha', he⟩

/-- The outcome of a run shows the candidates that it left in the origin. -/
theorem Stocked.outcome (h : f.Stocked) (hl : f.Linked) (hf : f.finalized = false)
    (hv : f.document.problem = none) {outcome : Outcome} (he : f.evaluation = .ok outcome) :
    f.conclude.1.startCandidates.mapM (Value.excerpt f.limit) = .ok outcome.candidates ∧
      ∃ records, outcome.trace = trace 0 records ∧ Lined f.document.root f.limit records := by
  obtain ⟨hnone, ho⟩ := evaluation_eq_ok hv he
  obtain ⟨texts, htexts, ho⟩ := bind_eq_ok ho
  cases ho
  obtain ⟨m, hm, hcandidates, -⟩ := hl.member?_ran f.startCandidates
  refine ⟨?_, _, rfl, h.lined _ 0 _⟩
  rw [startCandidates, conclude_member? hf hv hnone, hm, Option.map_some, hcandidates]
  exact htexts

/-- An outcome has nothing to show, or it is that of a run, whose candidates the origin still
has. -/
theorem outcome_of_reached {document : Document} {description : String} {raising : Bool}
    (h : Reached (fun _ => True) (start document description limit raising) g)
    {outcome : Outcome} (ho : outcome ∈ g.reported) :
    outcome.candidates = [] ∧ outcome.trace = [] ∨
      g.startCandidates.mapM (Value.excerpt limit) = .ok outcome.candidates ∧
        ∃ records, outcome.trace = trace 0 records ∧ Lined document.root limit records := by
  rcases h.first_settling with hg | ⟨f, k, c, hf, hk, hc, hg⟩
  · rw [(fresh_of_reached hg).2.1] at ho
    cases ho
  · obtain ⟨hfinalized, hreported, -⟩ := fresh_of_reached hf
    have hbuilt := (hg.built_of_settles hfinalized hk hc).1
    have hsettled := settled_of_settles hfinalized hreported hc k
    rw [hbuilt.reported_eq] at ho
    rcases hc with hc | ⟨hfin, -⟩
    · rw [hsettled.closed hc] at ho
      cases List.mem_singleton.mp ho
      exact .inl ⟨rfl, rfl⟩
    · obtain ⟨r, hr, herror, hok⟩ := hsettled.finalized hfin
      cases he : r.evaluation with
      | error fault =>
        rw [(herror fault he).2] at ho
        cases ho
      | ok given =>
        rw [(hok given he).2] at ho
        cases List.mem_singleton.mp ho
        cases hv : r.document.problem with
        | some problem =>
          cases (evaluation_of_invalid hv).symm.trans he
          exact .inl ⟨rfl, rfl⟩
        | none =>
          have hlinked := ((hf.builds.coherent (coherent_start ..)).readied hk hr).toLinked
          have hstocked := (hf.builds.stocked (stocked_start _ _ _ _)).readied hr
          have hstart := (hf.builds.built (coherent_start ..)).readied hr
          have hshown := hstocked.outcome hlinked ((readied_finalized hr).trans hfinalized) hv he
          rw [hstart.document_eq, hstart.limit_eq] at hshown
          rw [hbuilt.startCandidates_eq, call_of_readied hfin hr]
          exact .inr hshown

/-- **The limits that the values of an outcome are cut to.** Whatever calls led to a family, all
candidates of an outcome are cut to the limit of the chain, and every line of its trace is a label,
the count of a block, or the description and a message of an operation. The values in these are cut
to the limit of the chain if the operation heeds it, and else to the one that holds where none is
set. A text of such an operation is the one that the limit of the chain gives iff the two limits are
equal or neither cuts a value in it, and a value in it is within the limit of the chain iff the
other limit is, or the value is in full. -/
theorem values_shown {document : Document} {description : String} {raising : Bool}
    (hlimit : 10 ≤ limit)
    (h : Reached (fun _ => True) (start document description limit raising) g) :
    (∀ outcome ∈ g.reported,
      (∀ text ∈ outcome.candidates, (text.length : Int) ≤ limit ∧
        ∃ v ∈ g.startCandidates, v.excerpt limit = .ok text) ∧
      ∀ line ∈ outcome.trace, Line document.root limit line) ∧
    (∀ (o : Operation) s, o.Exhibits → o.step document.root limit = .ok s →
      o.Wording document.root (o.limitFor limit) s) ∧
    (∀ (o : Operation) phrase text, Phrase.text (o.limitFor limit) phrase = .ok text →
      (Phrase.text limit phrase = .ok text ↔ o.Heeds ∨ limit = Value.defaultLimit ∨
        ∀ v ∈ phrase.values, v.Fits (min Value.defaultLimit limit))) ∧
    ∀ (o : Operation) (v : Value) text, v.excerpt (o.limitFor limit) = .ok text →
      ((text.length : Int) ≤ limit ↔ o.Heeds ∨ Value.defaultLimit ≤ limit ∨ v.Fits limit) := by
  have hthree : 3 ≤ limit := Int.le_trans (by decide) hlimit
  refine ⟨fun outcome ho => ?_, fun o s => Operation.wording,
    fun o phrase text => Operation.text_limitFor_iff hthree,
    fun o v text => Operation.length_limitFor_iff hthree⟩
  rcases outcome_of_reached h ho with ⟨hnone, hblank⟩ | ⟨hcandidates, records, htrace, hlined⟩
  · rw [hnone, hblank]
    exact ⟨fun _ hm => absurd hm List.not_mem_nil, fun _ hm => absurd hm List.not_mem_nil⟩
  · refine ⟨fun text ht => ?_, fun line hl => hlined 0 line (htrace ▸ hl)⟩
    obtain ⟨v, hv, hexcerpt⟩ := exists_of_mapM hcandidates ht
    exact ⟨Value.length_excerpt_le hthree hexcerpt, v, hv, hexcerpt⟩

/-- A text that is cut among the candidates, and a text that it is compared with. -/
theorem values_shown_of_text :
    let root := Value.str "xxxxxxxxxxxxxxxx"
    ∃ g outcome, Reached (fun _ => True) (start (.ofValue root) "json document" 10 false) g ∧
      g.reported = [outcome] ∧ outcome.candidates = ["\"xxxxxx..."] ∧
      (∀ text ∈ outcome.candidates, (text.length : Int) ≤ 10) ∧
      (∀ line ∈ outcome.trace, Line root 10 line) ∧
      ∀ s, (Operation.mustBe (.str "y")).step root 10 = .ok s →
        (Operation.mustBe (.str "y")).Wording root 10 s := by
  intro root
  let f := ((start (.ofValue root) "json document" 10 false).call 0
    (.queue (.mustBe (.str "y")))).1
  let g := (f.call 0 .verify).1
  have hg : Reached (fun _ => True) (start (.ofValue root) "json document" 10 false) g :=
    .call (.call .start (by decide) trivial) (by decide) trivial
  have hshown : g.reported.map (·.candidates) = [["\"xxxxxx..."]] := by decide +kernel
  obtain ⟨outcome, hreported, hcandidates⟩ := List.map_eq_singleton_iff.mp hshown
  have hlimit : (10 : Int) ≤ 10 := Int.le_refl 10
  obtain ⟨hvalues, hwording, -⟩ := values_shown hlimit hg
  obtain ⟨hlengths, hlines⟩ := hvalues outcome (hreported ▸ List.mem_singleton_self _)
  exact ⟨g, outcome, hg, hreported, hcandidates, fun text ht => (hlengths text ht).1, hlines,
    fun s => hwording _ s trivial⟩

/-- An operation that does not heed the limit of its chain: neither the text that it was given nor
the one that it is put to is cut. -/
theorem limit_not_heeded :
    let root := Value.str "xxxxxxxxxxxxxxxx"
    let start₀ := Value.str "yyyyyyyyyyyy"
    ∃ g outcome, Reached (fun _ => True) (start (.ofValue root) "json document" 10 false) g ∧
      g.reported = [outcome] ∧
      root.excerpt 10 = .ok "\"xxxxxx..." ∧ start₀.excerpt 10 = .ok "\"yyyyyy..." ∧
      outcome.trace = ["❌ must_begin_with \"yyyyyyyyyyyy\": "
        ++ "[0] \"xxxxxxxxxxxxxxxx\" does not begin with \"yyyyyyyyyyyy\""] := by
  intro root start₀
  let f := ((start (.ofValue root) "json document" 10 false).call 0
    (.queue (.mustBeginWith start₀))).1
  have hshown : (f.call 0 .verify).1.reported.map (·.trace)
      = [["❌ must_begin_with \"yyyyyyyyyyyy\": "
        ++ "[0] \"xxxxxxxxxxxxxxxx\" does not begin with \"yyyyyyyyyyyy\""]] := by decide +kernel
  obtain ⟨outcome, hreported, htrace⟩ := List.map_eq_singleton_iff.mp hshown
  exact ⟨(f.call 0 .verify).1, outcome,
    .call (.call .start (by decide) trivial) (by decide) trivial, hreported, by decide +kernel,
    by decide +kernel, htrace⟩

end Family

end Attest

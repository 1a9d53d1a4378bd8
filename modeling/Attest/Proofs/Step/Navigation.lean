import Attest.Proofs.Path.Slash
import Attest.Proofs.Step.Sequence

/-!
# Going to a path

A step to a path has two ways to end. Either the path leads somewhere from every value that is
examined, and the step passes with what it leads to; or it leads nowhere from one of them, and the
step fails and leaves nothing. Whether an absolute path was given only decides what is examined.

Nothing is also what the next relative path then starts from, so it is examined from no value and
cannot fail. That is why two steps to a path and the rest of it come to the same as one: the first
miss is noticed by one of the two, and what comes after it neither adds nor hides anything.

## Main definitions

* `Path.examined` — the values that a path is followed from
* `Path.LeadsEach` — what a path leads to, one value for each that it is followed from
* `Path.Hops`, `Path.Misses` — following two paths, to the end or not

## Main results

* `Step.atPath_of_leads`, `Step.atPath_of_miss` — the two ways to end
* `Step.two_hops_are_one` — a path may be followed in two steps
-/

namespace Attest

namespace Path

/-- The values that a path is followed from. -/
def examined (path : String) (root : Value) (vs : List Value) : List Value :=
  if isAbsolute path then [root] else vs

/-- What a path leads to, one value for each that it is followed from. -/
def LeadsEach (path : String) : List Value → List Value → Prop :=
  List.Forall₂ fun v x => follow v path = .ok (some x)

/-- The first path leads to a value from which the second one leads on. -/
def Hops (p q : String) (v x : Value) : Prop :=
  ∃ y, follow v p = .ok (some y) ∧ follow y q = .ok (some x)

/-- One of the two paths leads nowhere. -/
def Misses (p q : String) (v : Value) : Prop :=
  follow v p = .ok none ∨ ∃ y, follow v p = .ok (some y) ∧ follow y q = .ok none

variable {p q path : String} {v x : Value} {vs xs ys : List Value}

/-! ### Paths in two parts -/

theorem Readable.joined (hp : Readable p) (hq : Readable q) : Readable (p ++ "/" ++ q) := by
  intro segment hs
  rw [toList_joined, segmentsOf_append] at hs
  rcases List.mem_append.mp hs with hs | hs
  · exact hp segment hs
  · exact hq segment hs

theorem isAbsolute_joined (hp : p ≠ "") : isAbsolute (p ++ "/" ++ q) = isAbsolute p := by
  have hne : p.toList ≠ [] := by simpa using hp
  rw [isAbsolute, isAbsolute, toList_joined, List.head?_append_of_ne_nil _ hne]

theorem examined_joined (hp : p ≠ "") (root : Value) (vs : List Value) :
    examined (p ++ "/" ++ q) root vs = examined p root vs := by
  rw [examined, examined, isAbsolute_joined hp]

theorem Hops.follow_joined (h : Hops p q v x) : follow v (p ++ "/" ++ q) = .ok (some x) := by
  obtain ⟨y, hy, hx⟩ := h
  rw [Path.follow_joined, hy]
  exact hx

theorem Misses.follow_joined (h : Misses p q v) : follow v (p ++ "/" ++ q) = .ok none := by
  rw [Path.follow_joined]
  rcases h with h | ⟨y, hy, h⟩
  · rw [h]
    rfl
  · rw [hy]
    exact h

/-! ### Following a path from every value -/

theorem followEach_of_leads (h : LeadsEach path vs xs) : followEach path vs = .ok xs := by
  induction h with
  | nil => rfl
  | cons hx _ ih =>
    rw [followEach, hx, ih]
    rfl

/-- At most one value is found for each, and with one fewer there is a miss. -/
theorem leads_of_followEach : ∀ {vs xs : List Value}, followEach path vs = .ok xs →
    LeadsEach path vs xs ∨ xs.length < vs.length
  | [], xs, h => by
    cases h
    exact .inl .nil
  | v :: rest, xs, h => by
    rw [followEach] at h
    obtain ⟨found, hfound, h⟩ := bind_eq_ok h
    obtain ⟨others, hothers, h⟩ := bind_eq_ok h
    cases h
    have ih := leads_of_followEach hothers
    cases found with
    | some x =>
      rcases ih with ih | hlt
      · exact .inl (.cons hfound ih)
      · exact .inr (Nat.succ_lt_succ hlt)
    | none =>
      have hle : others.length ≤ rest.length := by
        rcases ih with ih | hlt
        · exact ih.length_eq.ge
        · exact hlt.le
      exact .inr (Nat.lt_succ_of_le hle)

theorem Readable.succeeds_followEach (h : Readable path) (vs : List Value) :
    Succeeds (followEach path vs) := by
  induction vs with
  | nil => exact succeeds_ok _
  | cons v rest ih =>
    rw [followEach]
    exact (h.succeeds v).bind fun _ _ => ih.bind fun _ _ => succeeds_ok _

/-- A path that can be read leads somewhere from each value, or nowhere from one of them. -/
theorem Readable.leads_or_misses (h : Readable path) (vs : List Value) :
    (∃ xs, LeadsEach path vs xs) ∨ ∃ v ∈ vs, follow v path = .ok none := by
  induction vs with
  | nil => exact .inl ⟨[], .nil⟩
  | cons v rest ih =>
    obtain ⟨found, hfound⟩ := h.succeeds v
    cases found with
    | none => exact .inr ⟨v, List.mem_cons_self, hfound⟩
    | some x =>
      rcases ih with ⟨xs, hxs⟩ | ⟨w, hw, hmiss⟩
      · exact .inl ⟨x :: xs, .cons hfound hxs⟩
      · exact .inr ⟨w, List.mem_cons_of_mem _ hw, hmiss⟩

theorem LeadsEach.not_miss (h : LeadsEach path vs xs) (hv : v ∈ vs) :
    follow v path ≠ .ok none := by
  induction h with
  | nil => cases hv
  | cons hx _ ih =>
    rcases List.mem_cons.mp hv with rfl | hv
    · rw [hx]
      exact (nomatch ·)
    · exact ih hv

/-- Where each value comes from. -/
theorem LeadsEach.source (h : LeadsEach path vs xs) (hx : x ∈ xs) :
    ∃ v ∈ vs, follow v path = .ok (some x) := by
  induction h with
  | nil => cases hx
  | cons hv _ ih =>
    rcases List.mem_cons.mp hx with rfl | hx
    · exact ⟨_, List.mem_cons_self, hv⟩
    · obtain ⟨w, hw, hwx⟩ := ih hx
      exact ⟨w, List.mem_cons_of_mem _ hw, hwx⟩

/-- From each value to where two paths lead, the one after the other. -/
theorem LeadsEach.hops (hp : LeadsEach p vs ys) (hq : LeadsEach q ys xs) :
    List.Forall₂ (Hops p q) vs xs := by
  induction hp generalizing xs with
  | nil =>
    cases hq
    exact .nil
  | cons hy _ ih =>
    cases hq with
    | cons hx hrest => exact .cons ⟨_, hy, hx⟩ (ih hrest)

end Path

/-! ### The step -/

namespace Step

variable {path p q : String} {root : Value} {vs xs : List Value} {s : Step}

/-- What the step does: it compares how many values were found with how many were examined. -/
theorem run_atPath (hs : atPath (.str path) root = .ok s) (vs : List Value) :
    s.run vs = (followEach path (Path.examined path root vs)).map fun found =>
      if found.length ≠ (Path.examined path root vs).length then
        ⟨false, "path not found for "
          ++ toString ((Path.examined path root vs).length - found.length) ++ " of "
          ++ counted (Path.examined path root vs).length, []⟩
      else ⟨true, "selected " ++ counted found.length, found⟩ := by
  obtain ⟨shown, _, hs⟩ := bind_eq_ok hs
  cases hs
  exact bind_pure_comp _ (followEach path (Path.examined path root vs))

/-- **If the path leads somewhere from every value, the step passes.** -/
theorem atPath_of_leads (hs : atPath (.str path) root = .ok s)
    (h : Path.LeadsEach path (Path.examined path root vs) xs) :
    ∃ message, s.run vs = .ok ⟨true, message, xs⟩ := by
  refine ⟨"selected " ++ counted xs.length, ?_⟩
  rw [run_atPath hs, Path.followEach_of_leads h, Except.map, if_neg]
  exact not_not.mpr h.length_eq.symm

/-- There is no other way to pass. -/
theorem leads_of_atPath (hs : atPath (.str path) root = .ok s) {ran : Ran}
    (hran : s.run vs = .ok ran) (hpassed : ran.passed = true) :
    Path.LeadsEach path (Path.examined path root vs) ran.candidates := by
  rw [run_atPath hs] at hran
  obtain ⟨found, hfound, rfl⟩ := map_eq_ok hran
  rcases Path.leads_of_followEach hfound with hleads | hlt
  · rwa [if_neg (not_not.mpr hleads.length_eq.symm)]
  · rw [if_pos hlt.ne] at hpassed
    cases hpassed

/-- **If it leads nowhere from one of them, the step fails, and leaves nothing.** -/
theorem atPath_of_miss (hs : atPath (.str path) root = .ok s) (hpath : Path.Readable path)
    {v : Value} (hv : v ∈ Path.examined path root vs) (hmiss : Path.follow v path = .ok none) :
    ∃ message, s.run vs = .ok ⟨false, message, []⟩ := by
  obtain ⟨found, hfound⟩ := hpath.succeeds_followEach (Path.examined path root vs)
  have hlength : found.length ≠ (Path.examined path root vs).length := by
    rcases Path.leads_of_followEach hfound with hleads | hlt
    · exact absurd hmiss (hleads.not_miss hv)
    · exact hlt.ne
  rw [run_atPath hs, hfound, Except.map, if_pos hlength]
  exact ⟨_, rfl⟩

/-- **A path may be followed in two steps.** For paths of which the indexes can be read, the first
not empty and the second relative, going to the one and then to the other comes to the same as going
to both at once, from any candidates. If one of the values examined misses on either hop, both fail
and leave nothing. Otherwise both pass and leave what the two hops lead to, in the order of the
values examined. -/
theorem two_hops_are_one (hne : p ≠ "") (hq : Path.isAbsolute q = false)
    (hpr : Path.Readable p) (hqr : Path.Readable q) (root : Value) (vs : List Value) :
    ∃ first second whole : Step,
      atPath (.str p) root = .ok first
      ∧ atPath (.str q) root = .ok second
      ∧ atPath (.str (p ++ "/" ++ q)) root = .ok whole
      ∧ ∃ passed ws, ComesTo [first, second] vs passed ws ∧ ComesTo [whole] vs passed ws
        ∧ ((∃ v ∈ Path.examined p root vs, Path.Misses p q v) ∧ passed = false ∧ ws = []
          ∨ List.Forall₂ (Path.Hops p q) (Path.examined p root vs) ws ∧ passed = true) := by
  obtain ⟨first, hfirst⟩ : Succeeds (atPath (.str p) root) := ⟨_, rfl⟩
  obtain ⟨second, hsecond⟩ : Succeeds (atPath (.str q) root) := ⟨_, rfl⟩
  obtain ⟨whole, hwhole⟩ : Succeeds (atPath (.str (p ++ "/" ++ q)) root) := ⟨_, rfl⟩
  refine ⟨first, second, whole, hfirst, hsecond, hwhole, ?_⟩
  have hrelative (ws : List Value) : Path.examined q root ws = ws := by simp [Path.examined, hq]
  -- a miss on either hop is one of the whole path
  have hmisses {v : Value} (hv : v ∈ Path.examined p root vs) (hmiss : Path.Misses p q v) :
      ComesTo [whole] vs false [] := by
    rw [← Path.examined_joined (q := q) hne] at hv
    obtain ⟨_, hrun⟩ := atPath_of_miss hwhole (hpr.joined hqr) hv hmiss.follow_joined
    exact comesTo_singleton hrun
  rcases hpr.leads_or_misses (Path.examined p root vs) with ⟨ys, hys⟩ | ⟨v, hv, hmiss⟩
  · obtain ⟨_, hrunFirst⟩ := atPath_of_leads hfirst hys
    rcases hqr.leads_or_misses ys with ⟨xs, hxs⟩ | ⟨y, hy, hmiss⟩
    · have hhops := hys.hops hxs
      have hleads : Path.LeadsEach (p ++ "/" ++ q)
          (Path.examined (p ++ "/" ++ q) root vs) xs := by
        rw [Path.examined_joined hne]
        exact hhops.imp fun _ _ h => h.follow_joined
      rw [← hrelative ys] at hxs
      obtain ⟨_, hrunSecond⟩ := atPath_of_leads hsecond hxs
      obtain ⟨_, hrunWhole⟩ := atPath_of_leads hwhole hleads
      exact ⟨true, xs, comesTo_cons hrunFirst (comesTo_singleton hrunSecond),
        comesTo_singleton hrunWhole, .inr ⟨hhops, rfl⟩⟩
    · obtain ⟨v, hv, hvy⟩ := hys.source hy
      have hboth : Path.Misses p q v := .inr ⟨y, hvy, hmiss⟩
      rw [← hrelative ys] at hy
      obtain ⟨_, hrunSecond⟩ := atPath_of_miss hsecond hqr hy hmiss
      exact ⟨false, [], comesTo_cons hrunFirst (comesTo_singleton hrunSecond), hmisses hv hboth,
        .inl ⟨⟨v, hv, hboth⟩, rfl, rfl⟩⟩
  · -- nothing is left for the second step, so it passes
    obtain ⟨_, hrunFirst⟩ := atPath_of_miss hfirst hpr hv hmiss
    have hnone : Path.LeadsEach q (Path.examined q root []) [] := (hrelative []).symm ▸ .nil
    obtain ⟨_, hrunSecond⟩ := atPath_of_leads hsecond hnone
    exact ⟨false, [], comesTo_cons hrunFirst (comesTo_singleton hrunSecond),
      hmisses hv (.inl hmiss), .inl ⟨⟨v, hv, .inl hmiss⟩, rfl, rfl⟩⟩

/-- The last elements of two lists, one of them null, reached over an index from the end. -/
theorem two_hops_are_one_null :
    let vs := [Value.record [("a", .list [.int 1, .null])], Value.record [("a", .list [.str "x"])]]
    Path.isAbsolute "-1" = false ∧ Path.Readable "a" ∧ Path.Readable "-1"
      ∧ ∃ first second whole : Step,
        atPath (.str "a") .null = .ok first ∧ atPath (.str "-1") .null = .ok second
        ∧ atPath (.str "a/-1") .null = .ok whole
        ∧ ComesTo [first, second] vs true [.null, .str "x"]
        ∧ ComesTo [whole] vs true [.null, .str "x"] := by
  intro vs
  have hfirst : Path.Readable "a" := fun segment hs => Path.not_oversized (by
    revert segment
    decide)
  have hsecond : Path.Readable "-1" := fun segment hs => Path.not_oversized (by
    revert segment
    decide)
  obtain ⟨first, second, whole, hs, ht, hw, passed, ws, htwo, hone, -⟩ :=
    two_hops_are_one (by decide : "a" ≠ "") (by decide) hfirst hsecond .null vs
  cases hw
  obtain rfl : passed = true := hone.passed.symm
  obtain rfl : ws = [.null, .str "x"] := hone.candidates.symm
  exact ⟨by decide, hfirst, hsecond, first, second, _, hs, ht, rfl, htwo, hone⟩

end Step

end Attest

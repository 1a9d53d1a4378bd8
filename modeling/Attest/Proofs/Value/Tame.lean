import Attest.Proofs.Value.Plain

/-!
# Computations on values that can be shown

Trouble with a document should be a failed step, and for values that can be shown nearly all of it
is. What is left is said for each computation: exactly when it is interrupted, that the fault is
one of a few, and that the values it leaves can be shown again. Computations that are tame in this
sense can be put one after the other.

## Main definitions

* `Fault.Escapes` — the faults that escape where a failed step was due
* `AllShown` — values that can be shown
* `Tame` — a computation is interrupted iff said, and leaves values that can be shown

## Main results

* `Tame.bind`, `Tame.then`, `Tame.follow` — one computation after the other
-/

namespace Attest

/-- The faults that escape where a failed step was due. -/
def Fault.Escapes : Fault → Prop
  | .tooManyDigits _ | .repetitionTooLarge | .outOfRange _ | .unsupportedQuery | .noParent => True
  | _ => False

/-- Values that can be shown. -/
def AllShown (vs : List Value) : Prop := ∀ v ∈ vs, v.Shown

theorem allShown_nil : AllShown [] := fun _ hv => absurd hv List.not_mem_nil

theorem allShown_cons {v : Value} {vs : List Value} : AllShown (v :: vs) ↔ v.Shown ∧ AllShown vs :=
  List.forall_mem_cons

theorem allShown_append {vs ws : List Value} : AllShown (vs ++ ws) ↔ AllShown vs ∧ AllShown ws :=
  List.forall_mem_append

/-- A computation is interrupted iff said, by a fault that escapes, and leaves values that can be
shown. -/
structure Tame {α : Type} (x : Except Fault α) (left : α → List Value) (stops : Prop) : Prop where
  runs : Succeeds x ↔ ¬ stops
  shown : ∀ a, x = .ok a → AllShown (left a)
  cause : ∀ fault, x = .error fault → fault.Escapes

variable {α β : Type} {x : Except Fault α} {g : α → Except Fault β} {left : α → List Value}
  {left' : β → List Value} {stops stops' : Prop}

theorem tame_ok {a : α} (h : AllShown (left a)) : Tame (.ok a) left False where
  runs := ⟨fun _ => id, fun _ => succeeds_ok a⟩
  shown _ ha := Except.ok.inj ha ▸ h
  cause _ hf := by cases hf

theorem tame_error {fault : Fault} (h : fault.Escapes) :
    Tame (.error fault : Except Fault α) left True where
  runs := ⟨fun hs => absurd hs (not_succeeds_error fault), fun hs => absurd trivial hs⟩
  shown _ ha := by cases ha
  cause _ hf := Except.error.inj hf ▸ h

/-- A computation that leaves no values and is not interrupted. -/
theorem tame_of_succeeds (h : Succeeds x) : Tame x (fun _ => []) False := by
  obtain ⟨a, rfl⟩ := h
  exact tame_ok allShown_nil

theorem Tame.congr (h : Tame x left stops) (hs : stops ↔ stops') : Tame x left stops' where
  runs := h.runs.trans (not_congr hs)
  shown := h.shown
  cause := h.cause

theorem Tame.stopped {fault : Fault} (h : Tame (.error fault : Except Fault α) left stops) :
    stops :=
  Classical.byContradiction fun hn => not_succeeds_error fault (h.runs.mpr hn)

/-- A computation that passes on what interrupted another. -/
theorem Tame.error {fault : Fault} (h : Tame (.error fault : Except Fault α) left stops) :
    Tame (.error fault : Except Fault β) left' stops :=
  (tame_error (h.cause fault rfl)).congr (by simp [h.stopped])

/-- A computation that goes on after another. -/
theorem Tame.ok {a : α} {b : β} (h : Tame (.ok a) left stops) (hb : AllShown (left' b)) :
    Tame (.ok b) left' stops :=
  (tame_ok hb).congr (by simpa using h.runs.mp (succeeds_ok a))

/-- **One computation after the other is interrupted iff one of the two is.** -/
theorem Tame.bind {stops' : α → Prop} (h : Tame x left stops)
    (hg : ∀ a, AllShown (left a) → Tame (g a) left' (stops' a)) :
    Tame (x >>= g) left' (stops ∨ ∃ a, x = .ok a ∧ stops' a) := by
  cases x with
  | error fault => exact h.error.congr (by simp [h.stopped])
  | ok a =>
    have hruns : ¬ stops := h.runs.mp (succeeds_ok a)
    exact (hg a (h.shown a rfl)).congr (by simp [hruns])

/-- The same, if it does not matter to the second what the first one gives. -/
theorem Tame.then (h : Tame x left stops)
    (hg : ∀ a, AllShown (left a) → Tame (g a) left' stops') :
    Tame (x >>= g) left' (stops ∨ stops') := by
  cases x with
  | error fault => exact h.error.congr (by simp [h.stopped])
  | ok a =>
    have hruns : ¬ stops := h.runs.mp (succeeds_ok a)
    exact (hg a (h.shown a rfl)).congr (by simp [hruns])

/-- The same, if nothing interrupts the second. -/
theorem Tame.follow (h : Tame x left stops)
    (hg : ∀ a, AllShown (left a) → Tame (g a) left' False) : Tame (x >>= g) left' stops :=
  (h.then hg).congr (by simp)

theorem Tame.map {g : α → β} (h : Tame x left stops) (hg : ∀ a, left' (g a) = left a) :
    Tame (x.map g) left' stops := by
  cases x with
  | error fault => exact h.error
  | ok a => exact h.ok (by rw [hg]; exact h.shown a rfl)

end Attest

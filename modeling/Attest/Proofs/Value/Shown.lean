import Attest.Value.Excerpt

/-!
# Values that cannot be shown

Showing a value fails for one reason only: somewhere in it is an integer of more digits than are
converted to text.

## Main definitions

* `Succeeds` — a computation that no fault interrupts

## Main results

* `Value.display_error`, `label_error`, `excerpt_error` — the only fault of showing a value
-/

namespace Attest

/-! ### Computations that faults interrupt -/

theorem map_eq_ok {α β ε : Type} {g : α → β} {x : Except ε α} {b : β} (h : x.map g = .ok b) :
    ∃ a, x = .ok a ∧ g a = b := by
  cases x with
  | error e => cases h
  | ok a => exact ⟨a, rfl, Except.ok.inj h⟩

theorem bind_eq_ok {α β ε : Type} {x : Except ε α} {g : α → Except ε β} {b : β}
    (h : x >>= g = .ok b) : ∃ a, x = .ok a ∧ g a = .ok b := by
  cases x with
  | error e => cases h
  | ok a => exact ⟨a, rfl, h⟩

theorem bind_eq_error {α β : Type} {x : Except Fault α} {g : α → Except Fault β} {fault : Fault}
    (h : x >>= g = .error fault) : x = .error fault ∨ ∃ a, x = .ok a ∧ g a = .error fault := by
  cases x with
  | error e => exact .inl (by cases h; rfl)
  | ok a => exact .inr ⟨a, rfl, h⟩

/-- A computation that no fault interrupts. -/
def Succeeds {α : Type} (x : Except Fault α) : Prop := ∃ a, x = .ok a

section Succeeds

variable {α β : Type} {x : Except Fault α}

theorem succeeds_ok (a : α) : Succeeds (.ok a) := ⟨a, rfl⟩

theorem not_succeeds_error (fault : Fault) : ¬ Succeeds (.error fault : Except Fault α) := by
  rintro ⟨_, h⟩
  cases h

theorem not_succeeds_iff : ¬ Succeeds x ↔ ∃ fault, x = .error fault := by
  cases x with
  | error fault => simp [not_succeeds_error]
  | ok a => simp [succeeds_ok]

theorem Succeeds.bind {g : α → Except Fault β} (hx : Succeeds x) (hg : ∀ a, x = .ok a →
    Succeeds (g a)) : Succeeds (x >>= g) := by
  obtain ⟨a, rfl⟩ := hx
  exact hg a rfl

theorem Succeeds.map (g : α → β) (hx : Succeeds x) : Succeeds (x.map g) := by
  obtain ⟨a, rfl⟩ := hx
  exact ⟨g a, rfl⟩

theorem succeeds_map_iff {g : α → β} : Succeeds (x.map g) ↔ Succeeds x := by
  refine ⟨?_, Succeeds.map g⟩
  cases x with
  | error fault => exact fun h => absurd h (not_succeeds_error fault)
  | ok a => exact fun _ => succeeds_ok a

theorem succeeds_bind_iff {g : α → Except Fault β} :
    Succeeds (x >>= g) ↔ ∃ a, x = .ok a ∧ Succeeds (g a) := by
  constructor
  · rintro ⟨b, h⟩
    obtain ⟨a, ha, hb⟩ := bind_eq_ok h
    exact ⟨a, ha, b, hb⟩
  · rintro ⟨a, rfl, h⟩
    exact h

/-- A computation, of which the result is only put into a form. -/
theorem succeeds_return_iff (g : α → β) : Succeeds (do return g (← x)) ↔ Succeeds x := by
  rw [bind_pure_comp]
  exact succeeds_map_iff

/-- Two computations, of which neither needs the result of the other. -/
theorem succeeds_both_iff {γ : Type} {y : Except Fault β} (g : α → β → γ) :
    Succeeds (do return g (← x) (← y)) ↔ Succeeds x ∧ Succeeds y := by
  constructor
  · intro h
    obtain ⟨a, ha, h⟩ := succeeds_bind_iff.mp h
    obtain ⟨b, hb, _⟩ := succeeds_bind_iff.mp h
    exact ⟨⟨a, ha⟩, ⟨b, hb⟩⟩
  · rintro ⟨⟨a, rfl⟩, ⟨b, rfl⟩⟩
    exact succeeds_ok _

theorem succeeds_mapM_iff {g : α → Except Fault β} {l : List α} :
    Succeeds (l.mapM g) ↔ ∀ a ∈ l, Succeeds (g a) := by
  induction l with
  | nil => simp [succeeds_ok, pure, Except.pure]
  | cons a l ih =>
    rw [List.mapM_cons, List.forall_mem_cons, ← ih]
    exact succeeds_both_iff (· :: ·)

end Succeeds

theorem intText_error {n : Int} {fault : Fault} (h : intText n = .error fault) :
    fault = .tooManyDigits none := by
  unfold intText at h
  split at h
  · cases h
  · exact (Except.error.inj h).symm

namespace Value

mutual

/-- **Only an integer with too many digits keeps a value from being shown.** -/
theorem display_error {fault : Fault} : ∀ {v : Value}, v.display = .error fault →
    fault = .tooManyDigits none
  | .int n => fun h => intText_error h
  | .array _ .list items | .array _ .tuple items => fun h => by
    rw [display] at h
    rcases bind_eq_error h with h | ⟨_, _, h⟩
    · exact displayItems_error h
    · cases h
  | .object _ .plain entries | .object _ .view entries => fun h => by
    rw [display] at h
    rcases bind_eq_error h with h | ⟨_, _, h⟩
    · exact displayEntries_error h
    · cases h
  | .set (v :: members) => fun h => by
    rw [display] at h
    rcases bind_eq_error h with h | ⟨_, _, h⟩
    · exact displayItems_error h
    · cases h
    · rintro ⟨⟩
  | .null | .bool _ | .float _ | .str _ | .set [] | .bytes _ | .date _ | .timestamp _
  | .pattern .. | .missing => fun h => by simp [display] at h

theorem displayItems_error {fault : Fault} : ∀ {items : List Value},
    displayItems items = .error fault → fault = .tooManyDigits none
  | [] => fun h => by simp [displayItems] at h
  | v :: rest => fun h => by
    rw [displayItems] at h
    rcases bind_eq_error h with h | ⟨_, _, h⟩
    · exact display_error h
    · rcases bind_eq_error h with h | ⟨_, _, h⟩
      · exact displayItems_error h
      · cases h

theorem displayEntries_error {fault : Fault} : ∀ {entries : Entries},
    displayEntries entries = .error fault → fault = .tooManyDigits none
  | [] => fun h => by simp [displayEntries] at h
  | (k, v) :: rest => fun h => by
    rw [displayEntries] at h
    rcases bind_eq_error h with h | ⟨_, _, h⟩
    · exact display_error h
    · rcases bind_eq_error h with h | ⟨_, _, h⟩
      · exact display_error h
      · rcases bind_eq_error h with h | ⟨_, _, h⟩
        · exact displayEntries_error h
        · cases h

end

theorem label_error {v : Value} {fault : Fault} (h : v.label = .error fault) :
    fault = .tooManyDigits none := by
  cases v with
  | str | date | timestamp => cases h
  | null | bool | int | float | array | object | set | bytes | pattern | missing =>
    exact display_error h

theorem excerpt_error {limit : Int} {v : Value} {fault : Fault}
    (h : v.excerpt limit = .error fault) : fault = .tooManyDigits none := by
  unfold excerpt at h
  cases hr : rendered v with
  | ok text =>
    rw [hr] at h
    cases h
  | error e =>
    rw [hr] at h
    cases h
    unfold rendered at hr
    split at hr
    · cases hr
    · exact display_error hr

end Value

end Attest

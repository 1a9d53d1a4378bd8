import Attest.Command.Execute
import Attest.Proofs.Console.Contract

/-!
# Work that only shows something

Most of what a command does shows lines and leaves everything else alone: what such work comes to,
and which lines it shows, depends on the console and on the files that are there, and not on what
was shown before. Work that is put together from such work is of that kind. Only the keeping of a
report makes a file.

## Main definitions

* `Command.Tells` — work that shows some lines and does nothing else
* `Command.Gives` — the same, for work that no fault ends
* `Command.Makes` — the same, for work that also leaves other files
* `Command.Telling` — work that only shows something, with a condition on what it gives back if no
  fault ends it
* `Command.Fails` — work that a fault ends

## Main results

* `Command.Tells.bind`, `Tells.bind_error`, `Gives.bind`, `Telling.bind` — one piece of work after
  the other
* `Command.gives_print`, `Command.telling_print` — printing
-/

namespace Attest

namespace Command

variable {α β : Type} {p : Packages} {root : FileNode} {w : Work α} {g : α → Work β} {a : α} {b : β}
  {r : Except Fault β} {fault : Fault} {before after : List String} {P : α → Prop} {Q : β → Prop}
  {left : FileNode} {written : List (Location × List UInt8)}

/-- The work comes to something and shows lines, whatever was shown before, and does nothing
else. -/
def Tells (p : Packages) (root : FileNode) (w : Work α) (r : Except Fault α)
    (lines : List String) : Prop :=
  ∀ screen : Screen, screen.files = root →
    w p screen = (r, { screen with lines := screen.lines ++ lines })

/-- The work only shows something, and gives back a value. -/
def Gives (p : Packages) (root : FileNode) (w : Work α) (a : α) : Prop :=
  ∃ lines, Tells p root w (.ok a) lines

/-- The work shows something, gives back a value, and leaves other files, of which some were
written. -/
def Makes (p : Packages) (root : FileNode) (w : Work α) (a : α) (left : FileNode)
    (written : List (Location × List UInt8)) : Prop :=
  ∃ lines, ∀ screen : Screen, screen.files = root →
    w p screen = (.ok a, ⟨screen.lines ++ lines, left, screen.written ++ written⟩)

/-- The work only shows something, and if no fault ends it, what it gives back is of some kind. -/
def Telling (p : Packages) (root : FileNode) (w : Work α) (P : α → Prop) : Prop :=
  ∃ r lines, Tells p root w r lines ∧ ∀ a, r = .ok a → P a

/-- A fault ends the work. -/
def Fails (p : Packages) (root : FileNode) (w : Work α) : Prop :=
  ∀ screen : Screen, screen.files = root → ∃ fault after, w p screen = (.error fault, after)

/-! ### One after the other -/

theorem bind_apply (w : Work α) (g : α → Work β) (p : Packages) (screen : Screen) :
    (w >>= g) p screen = match w p screen with
      | (.ok a, after) => g a p after
      | (.error fault, after) => (.error fault, after) := by
  change (match w p screen with
    | (r, after) => ExceptT.bindCont (fun a => g a p) r after) = _
  rcases w p screen with ⟨r, after⟩
  cases r <;> rfl

theorem tells_pure (a : α) : Tells p root (pure a) (.ok a) [] := by
  intro screen _
  rw [List.append_nil]
  rfl

theorem tells_lift (r : Except Fault α) : Tells p root (lift r) r [] := by
  intro screen _
  rw [List.append_nil]
  rfl

theorem tells_throw (fault : Fault) : Tells p root (throw fault : Work α) (.error fault) [] :=
  tells_lift (.error fault)

theorem tells_showLines (lines : List String) : Tells p root (showLines lines) (.ok ()) lines :=
  fun _ _ => rfl

/-- After work that only shows something, the next work finds the rest as it was. -/
theorem Tells.bind_apply (hw : Tells p root w (.ok a) before) (g : α → Work β) {screen : Screen}
    (hscreen : screen.files = root) :
    (w >>= g) p screen = g a p { screen with lines := screen.lines ++ before } := by
  rw [Command.bind_apply, hw screen hscreen]

theorem Tells.bind (hw : Tells p root w (.ok a) before) (hg : Tells p root (g a) r after) :
    Tells p root (w >>= g) r (before ++ after) := by
  intro screen hscreen
  have hafter := hg { screen with lines := screen.lines ++ before } hscreen
  rw [hw.bind_apply g hscreen, hafter, List.append_assoc]

theorem Tells.bind_error (hw : Tells p root w (.error fault) before) :
    Tells p root (w >>= g) (.error fault) before := by
  intro screen hscreen
  rw [Command.bind_apply, hw screen hscreen]

theorem Gives.bind (hw : Gives p root w a) (hg : Gives p root (g a) b) :
    Gives p root (w >>= g) b := by
  obtain ⟨before, hw⟩ := hw
  obtain ⟨after, hg⟩ := hg
  exact ⟨before ++ after, hw.bind hg⟩

theorem gives_pure (a : α) : Gives p root (pure a) a := ⟨_, tells_pure a⟩

theorem gives_lift {r : Except Fault α} (h : r = .ok a) : Gives p root (lift r) a := by
  rw [h]
  exact ⟨[], tells_lift _⟩

theorem Gives.makes (hw : Gives p root w a) : Makes p root w a root [] := by
  obtain ⟨lines, hw⟩ := hw
  refine ⟨lines, fun screen hscreen => ?_⟩
  rw [hw screen hscreen, List.append_nil, hscreen]

theorem Gives.bind_makes (hw : Gives p root w a) (hg : Makes p root (g a) b left written) :
    Makes p root (w >>= g) b left written := by
  obtain ⟨before, hw⟩ := hw
  obtain ⟨after, hg⟩ := hg
  refine ⟨before ++ after, fun screen hscreen => ?_⟩
  have hafter := hg { screen with lines := screen.lines ++ before } hscreen
  rw [hw.bind_apply g hscreen, hafter, List.append_assoc]

theorem Makes.bind_gives (hw : Makes p root w a left written) (hg : Gives p left (g a) b) :
    Makes p root (w >>= g) b left written := by
  obtain ⟨before, hw⟩ := hw
  obtain ⟨after, hg⟩ := hg
  refine ⟨before ++ after, fun screen hscreen => ?_⟩
  rw [Command.bind_apply, hw screen hscreen]
  refine (hg ⟨_, left, _⟩ rfl).trans ?_
  rw [List.append_assoc]

theorem Telling.bind (hw : Telling p root w P) (hg : ∀ a, P a → Telling p root (g a) Q) :
    Telling p root (w >>= g) Q := by
  obtain ⟨r, before, hr, hP⟩ := hw
  cases r with
  | error fault => exact ⟨_, before, hr.bind_error, nofun⟩
  | ok a =>
    obtain ⟨r, after, hafter, hQ⟩ := hg a (hP a rfl)
    exact ⟨r, before ++ after, hr.bind hafter, hQ⟩

theorem Gives.telling (hw : Gives p root w a) (h : P a) : Telling p root w P := by
  obtain ⟨lines, hw⟩ := hw
  exact ⟨_, lines, hw, fun _ he => Except.ok.inj he ▸ h⟩

/-- After work that only shows something, it matters only what the next work does with the files
that were there. -/
theorem Telling.bind_congr {g g' : α → Work β} (hw : Telling p root w P)
    (hg : ∀ a, ∀ screen : Screen, screen.files = root → g a p screen = g' a p screen)
    {screen : Screen} (hscreen : screen.files = root) :
    (w >>= g) p screen = (w >>= g') p screen := by
  obtain ⟨r, lines, hw, _⟩ := hw
  rw [Command.bind_apply, Command.bind_apply, hw screen hscreen]
  cases r with
  | error fault => rfl
  | ok a => exact hg a _ hscreen

/-- Work that a fault ends is not reached, or its fault ends all of the work. -/
theorem Telling.bind_fails (hw : Telling p root w P) (hg : ∀ a, P a → Fails p root (g a)) :
    Fails p root (w >>= g) := by
  obtain ⟨r, lines, hr, hP⟩ := hw
  intro screen hscreen
  rw [Command.bind_apply, hr screen hscreen]
  cases r with
  | error fault => exact ⟨fault, _, rfl⟩
  | ok a => exact hg a (hP a rfl) _ hscreen

theorem Fails.bind (hw : Fails p root w) (g : α → Work β) : Fails p root (w >>= g) := by
  intro screen hscreen
  obtain ⟨fault, after, h⟩ := hw screen hscreen
  exact ⟨fault, after, by rw [Command.bind_apply, h]⟩

/-- Whatever the first work does to the files, there is a fault behind it. -/
theorem fails_throw (w : Work α) (fault : Fault) :
    Fails p root (w >>= fun _ => (throw fault : Work β)) := by
  intro screen _
  rw [Command.bind_apply]
  rcases w p screen with ⟨r, after⟩
  cases r with
  | error early => exact ⟨early, after, rfl⟩
  | ok a => exact ⟨fault, after, rfl⟩

theorem telling_lift (r : Except Fault α) : Telling p root (lift r) fun a => r = .ok a :=
  ⟨_, _, tells_lift r, fun _ => id⟩

/-! ### Printing -/

theorem tells_print {how : Console → Except Fault (List String)} {lines : List String}
    (h : how p.console = .ok lines) : Tells p root (print how) (.ok ()) lines := by
  have hlift : Tells p root (lift (how p.console)) (.ok lines) [] := h ▸ tells_lift (how p.console)
  exact hlift.bind (tells_showLines lines)

theorem tells_print_error {how : Console → Except Fault (List String)}
    (h : how p.console = .error fault) : Tells p root (print how) (.error fault) [] := by
  have hlift : Tells p root (lift (how p.console)) (.error fault) [] :=
    h ▸ tells_lift (how p.console)
  exact hlift.bind_error

theorem gives_print {how : Console → Except Fault (List String)} (h : Succeeds (how p.console)) :
    Gives p root (print how) () := by
  obtain ⟨lines, h⟩ := h
  exact ⟨lines, tells_print h⟩

theorem telling_print (how : Console → Except Fault (List String)) :
    Telling p root (print how) fun _ => True := by
  cases h : how p.console with
  | ok lines => exact ⟨_, _, tells_print h, fun _ _ => trivial⟩
  | error fault => exact ⟨_, _, tells_print_error h, nofun⟩

theorem telling_sayUnless (quiet : Bool) (text : String) :
    Telling p root (sayUnless quiet text) fun _ => True := by
  cases quiet with
  | true => exact (gives_pure ()).telling trivial
  | false => exact telling_print (·.markup text)

theorem gives_sayUnless {quiet : Bool} {text : String}
    (h : quiet = false → Gives p root (say text) ()) :
    Gives p root (sayUnless quiet text) () := by
  cases quiet with
  | true => exact gives_pure ()
  | false => exact h rfl

end Command

end Attest

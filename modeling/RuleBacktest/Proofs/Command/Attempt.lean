import RuleBacktest.Command.Workspace

/-!
# Attempts in a workspace

An attempt ends well, with a value, or badly, with a failure, and either way in
some workspace.  What can be said of the two ends of a sequence is said of the
ends of its parts.
-/

namespace RuleBacktest
namespace Attempt

open Calendar

variable {β γ : Type}

/-- What an attempt comes to in a workspace. -/
def on (x : Attempt (StateM Workspace) β) (w : Workspace) :
    Except Failure β × Workspace :=
  StateT.run (ExceptT.run x) w

/-- Every good end of an attempt is as wanted, and so is every bad one. -/
def Ends (x : Attempt (StateM Workspace) β) (w : Workspace)
    (good : β → Workspace → Prop) (bad : Failure → Workspace → Prop) : Prop :=
  match on x w with
  | (.ok b, w') => good b w'
  | (.error e, w') => bad e w'

variable {x : Attempt (StateM Workspace) β}
  {f : β → Attempt (StateM Workspace) γ} {w w' : Workspace}
  {good good' : β → Workspace → Prop} {after : γ → Workspace → Prop}
  {bad bad' : Failure → Workspace → Prop}

theorem Ends.ok
    (h : Ends x w good bad)
    {b : β}
    (hx : on x w = (.ok b, w')) :
    good b w' := by
  simpa only [Ends, hx] using h

theorem Ends.error
    (h : Ends x w good bad)
    {e : Failure}
    (hx : on x w = (.error e, w')) :
    bad e w' := by
  simpa only [Ends, hx] using h

theorem Ends.mono
    (h : Ends x w good bad)
    (hgood : ∀ b w', good b w' → good' b w')
    (hbad : ∀ e w', bad e w' → bad' e w') :
    Ends x w good' bad' := by
  unfold Ends at h ⊢
  split
  · next b w' hx =>
      rw [hx] at h
      exact hgood b w' h
  · next e w' hx =>
      rw [hx] at h
      exact hbad e w' h

theorem on_bind (x : Attempt (StateM Workspace) β)
    (f : β → Attempt (StateM Workspace) γ) (w : Workspace) :
    on (x >>= f) w = match on x w with
      | (.ok b, w') => on (f b) w'
      | (.error e, w') => (.error e, w') := by
  simp only [on, ExceptT.run_bind, StateT.run_bind]
  cases hx : StateT.run (ExceptT.run x) w with
  | mk outcome w' =>
      cases outcome with
      | ok b => rfl
      | error e => rfl

theorem Ends.bind (h : Ends x w (fun b w' => Ends (f b) w' after bad) bad) :
    Ends (x >>= f) w after bad := by
  unfold Ends at h ⊢
  rw [on_bind]
  split at h
  · exact h
  · exact h

theorem Ends.pure {b : β} (h : good b w) : Ends (pure b) w good bad := h

theorem Ends.conclude {outcome : Except Failure β}
    (hgood : ∀ b, outcome = .ok b → good b w)
    (hbad : ∀ e, outcome = .error e → bad e w) :
    Ends (conclude outcome) w good bad := by
  cases outcome with
  | ok b => exact hgood b rfl
  | error e => exact hbad e rfl

theorem Ends.andThen
    (h : Ends x w good bad')
    (hgood : ∀ b w', good b w' → Ends (f b) w' after bad)
    (hbad : ∀ e w', bad' e w' → bad e w') :
    Ends (x >>= f) w after bad :=
  (h.mono hgood hbad).bind

theorem Ends.concludeThen {outcome : Except Failure β}
    (hgood : ∀ b, outcome = .ok b → Ends (f b) w after bad)
    (hbad : ∀ e, outcome = .error e → bad e w) :
    Ends (RuleBacktest.conclude outcome >>= f) w after bad :=
  (Ends.conclude hgood hbad).bind

/-! ## What the host does -/

theorem Ends.readText {path : String}
    {good : Except FileFault String → Workspace → Prop}
    (h : good (w.readText path) w) :
    Ends (Host.readText path) w good bad :=
  h

theorem Ends.openStore {name : String}
    {good : Except Failure (OpenStore Float) → Workspace → Prop}
    (h : good (w.openStore name).1 (w.openStore name).2) :
    Ends (Host.openStore name) w good bad := h

theorem Ends.keepStore {name : String} {store : Store Float}
    {good : Except Failure Unit → Workspace → Prop}
    (h : good (.ok ()) (w.keepStore name store)) :
    Ends (Host.keepStore name store) w good bad :=
  h

theorem Ends.say {line : String} {good : Unit → Workspace → Prop}
    (h : good () { w with said := w.said ++ [line] }) :
    Ends (Host.say line) w good bad :=
  h

theorem Ends.tell {line : String} {good : Unit → Workspace → Prop}
    (h : good () { w with told := w.told ++ [line] }) :
    Ends (Host.tell line) w good bad :=
  h

theorem Ends.now {good : Moment → Workspace → Prop} (h : good w.clock w) :
    Ends Host.now w good bad := h

theorem Ends.freshId {good : String → Workspace → Prop}
    (h : good (Workspace.idAfter w.issued) { w with issued := w.issued + 1 }) :
    Ends Host.freshId w good bad := h

end Attempt

/-- A command ends well with the code zero, or badly with another one and with a
line that tells why. -/
theorem Workspace.run_cases (w : Workspace) (c : Command)
    {good : Unit → Workspace → Prop} {bad : Failure → Workspace → Prop}
    (h :
      Attempt.Ends (Command.attempt c) { w with said := [], told := [] }
        good bad) :
    (∃ w', good () w' ∧ w.run c = (0, w')) ∨
        ∃ e w', bad e w' ∧
          w.run c =
            (e.exitCode,
              { w' with told := w'.told ++ ["error: " ++ e.message] }) := by
  cases hattempt : Attempt.on (Command.attempt c)
    { w with said := [], told := [] } with
  | mk outcome w' =>
      have hrun : w.run c = match outcome with
          | .ok () => (0, w')
          | .error e =>
              (e.exitCode,
                  { w' with told := w'.told ++ ["error: " ++ e.message] }) := by
        unfold Attempt.on at hattempt
        simp only [Workspace.run, Command.run, StateT.run_bind, hattempt]
        cases outcome with
        | ok b => rfl
        | error e => rfl
      cases outcome with
      | ok b => exact Or.inl ⟨w', h.ok hattempt, hrun⟩
      | error e => exact Or.inr ⟨e, w', h.error hattempt, hrun⟩

end RuleBacktest

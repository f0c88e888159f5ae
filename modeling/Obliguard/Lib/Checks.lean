import Mathlib.Tactic.Common

/-!
# Sequences of checks

A request that is checked point by point: a value that has to be there, a condition under which it is refused.
The sequence succeeds when each of its checks does.
-/

namespace Obliguard.Checks

variable {ε α β : Type}

/-- The value, or the error. -/
def need (o : Option α) (e : ε) : Except ε α :=
  match o with
  | some a => .ok a
  | none => .error e

/-- The error under a condition. -/
def refuseIf (condition : Bool) (e : ε) : Except ε Unit := if condition then .error e else .ok ()

theorem need_eq_ok {o : Option α} {e : ε} {a : α} : need o e = .ok a ↔ o = some a := by
  cases o with
  | none => exact iff_of_false nofun nofun
  | some b => exact ⟨fun h => congrArg some (Except.ok.inj h), fun h => congrArg Except.ok (Option.some.inj h)⟩

theorem refuseIf_eq_ok {condition : Bool} {e : ε} {u : Unit} :
    refuseIf condition e = .ok u ↔ condition = false := by
  cases condition with
  | false => exact iff_of_true rfl rfl
  | true => exact iff_of_false nofun nofun

theorem bind_eq_ok {x : Except ε α} {f : α → Except ε β} {b : β} :
    x >>= f = .ok b ↔ ∃ a, x = .ok a ∧ f a = .ok b := by
  cases x with
  | error e => exact iff_of_false nofun fun ⟨_, h, _⟩ => nomatch h
  | ok a => exact ⟨fun h => ⟨a, rfl, h⟩, fun ⟨_, h, h'⟩ => Except.ok.inj h ▸ h'⟩

theorem exists_ok {x : Except ε α} (h : x.toOption.isSome = true) : ∃ a, x = .ok a := by
  cases x with
  | error e => contradiction
  | ok a => exact ⟨a, rfl⟩

end Obliguard.Checks

import Mathlib.Data.List.Nodup
import Mathlib.Logic.Function.Basic
import Mathlib.Tactic.Common

/-!
# Accounts

Processes come to owe reports of items, and make them later: `owed` is what they came to owe, `done`
what they reported, `pending c` what process `c` has still to report, and `gone c` says that `c` has
ended. In `Accounts` whatever is owed is reported or pending, by the process that owes it and once.
-/

namespace Obliguard

variable {π ι : Type}

structure Accounts (owed done : List (π × ι)) (pending : π → List ι) (gone : π → Prop) : Prop where
  mem_iff : ∀ c i, (c, i) ∈ owed ↔ (c, i) ∈ done ∨ i ∈ pending c
  nodup : done.Nodup
  pendingNodup : ∀ c, (pending c).Nodup
  ended : ∀ c i, (c, i) ∈ done → gone c
  idle : ∀ c, gone c → pending c = []

namespace Accounts

variable {owed done : List (π × ι)} {pending pending' : π → List ι} {gone gone' : π → Prop} {c : π}

theorem empty (h : ∀ c, pending c = []) : Accounts [] [] pending gone := by
  refine ⟨?_, .nil, ?_, ?_, fun c _ => h c⟩
  · intro c i
    simp [h]
  · intro c
    rw [h c]
    exact .nil
  · intro c i hi
    contradiction

theorem keep (h : Accounts owed done pending gone) (hpending : ∀ c, pending' c = pending c)
    (hover : ∀ c, gone c → gone' c) (hidle : ∀ c, gone' c → pending' c = []) :
    Accounts owed done pending' gone' := by
  refine ⟨?_, h.nodup, ?_, fun c i hi => hover c (h.ended c i hi), hidle⟩
  · intro c i
    rw [hpending]
    exact h.mem_iff c i
  · intro c
    rw [hpending]
    exact h.pendingNodup c

variable [DecidableEq π]

theorem owe (h : Accounts owed done pending gone) {new later : List ι} (hlater : later.Nodup)
    (hsame : ∀ i, i ∈ new ↔ i ∈ later) (hfresh : ∀ i ∈ later, (c, i) ∉ owed) (hc : ¬ gone c) :
    Accounts (owed ++ new.map (c, ·)) done (Function.update pending c (pending c ++ later)) gone := by
  refine ⟨?_, h.nodup, ?_, h.ended, ?_⟩
  · intro d i
    rw [List.mem_append, h.mem_iff, or_assoc]
    by_cases hd : d = c
    · subst hd
      simp [hsame]
    · rw [Function.update_of_ne hd]
      simp [Ne.symm hd]
  · intro d
    by_cases hd : d = c
    · subst hd
      rw [Function.update_self, List.nodup_append]
      refine ⟨h.pendingNodup d, hlater, ?_⟩
      rintro i hi j hj rfl
      exact hfresh i hj ((h.mem_iff d i).mpr (.inr hi))
    · rw [Function.update_of_ne hd]
      exact h.pendingNodup d
  · intro d hd
    have hdc : d ≠ c := by
      rintro rfl
      exact hc hd
    rw [Function.update_of_ne hdc]
    exact h.idle d hd

theorem settle (h : Accounts owed done pending gone) (hc : ¬ gone c) :
    Accounts owed (done ++ (pending c).map (c, ·)) (Function.update pending c [])
      fun d => d = c ∨ gone d := by
  refine ⟨?_, ?_, ?_, ?_, ?_⟩
  · intro d i
    rw [h.mem_iff, List.mem_append]
    by_cases hd : d = c
    · subst hd
      simp
    · rw [Function.update_of_ne hd]
      simp [Ne.symm hd]
  · rw [List.nodup_append]
    refine ⟨h.nodup, (h.pendingNodup c).map fun i j hij => (Prod.mk.inj hij).2, ?_⟩
    rintro ⟨d, i⟩ hd e he rfl
    obtain ⟨j, -, hj⟩ := List.mem_map.mp he
    obtain ⟨rfl, rfl⟩ := Prod.mk.inj hj
    exact hc (h.ended _ _ hd)
  · intro d
    by_cases hd : d = c
    · subst hd
      rw [Function.update_self]
      exact .nil
    · rw [Function.update_of_ne hd]
      exact h.pendingNodup d
  · intro d i hi
    rcases List.mem_append.mp hi with hi | hi
    · exact .inr (h.ended d i hi)
    · obtain ⟨j, -, hj⟩ := List.mem_map.mp hi
      exact .inl (Prod.mk.inj hj).1.symm
  · intro d hd
    by_cases hdc : d = c
    · rw [hdc, Function.update_self]
    · rw [Function.update_of_ne hdc]
      exact h.idle d (hd.resolve_left hdc)

end Accounts

end Obliguard

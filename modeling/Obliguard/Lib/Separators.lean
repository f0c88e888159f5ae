import Mathlib.Data.List.Basic
import Mathlib.Tactic.Common

/-!
# Texts split at a separator

Two ways to write a list around a separator are one, when the parts before it do not hold it (`append_cons_inj`), or
the parts behind it (`append_cons_inj_right`, `append_last_inj`).
-/

namespace Obliguard

variable {α : Type} {a : α} {x z v w : List α}

theorem append_cons_cases (hx : a ∉ x) (h : x ++ a :: v = z ++ a :: w) :
    z = x ∧ v = w ∨ ∃ z', z = x ++ a :: z' ∧ v = z' ++ a :: w := by
  obtain ⟨d, hz, hv⟩ | ⟨d, hxd, hw⟩ := List.append_eq_append_iff.mp h
  · cases d with
    | nil => exact .inl ⟨by rw [hz, List.append_nil], (List.cons.inj hv).2⟩
    | cons b d =>
      obtain ⟨rfl, hv'⟩ := List.cons.inj hv
      exact .inr ⟨d, hz, hv'⟩
  · cases d with
    | nil => exact .inl ⟨by rw [hxd, List.append_nil], (List.cons.inj hw).2.symm⟩
    | cons b d =>
      obtain ⟨rfl, -⟩ := List.cons.inj hw
      exact absurd (hxd ▸ List.mem_append_right z List.mem_cons_self) hx

theorem append_cons_inj (hx : a ∉ x) (hz : a ∉ z)
    (h : x ++ a :: v = z ++ a :: w) : x = z ∧ v = w := by
  obtain ⟨hxz, hv⟩ | ⟨z', rfl, -⟩ := append_cons_cases hx h
  · exact ⟨hxz.symm, hv⟩
  · exact absurd (List.mem_append_right x List.mem_cons_self) hz

theorem append_cons_inj_right (hv : a ∉ v) (hw : a ∉ w)
    (h : x ++ a :: v = z ++ a :: w) : x = z ∧ v = w := by
  obtain ⟨d, hz, hd⟩ | ⟨d, hx, hd⟩ := List.append_eq_append_iff.mp h
  · cases d with
    | nil => exact ⟨by rw [hz, List.append_nil], (List.cons.inj hd).2⟩
    | cons b d => exact absurd ((List.cons.inj hd).2 ▸ List.mem_append_right d List.mem_cons_self) hv
  · cases d with
    | nil => exact ⟨by rw [hx, List.append_nil], (List.cons.inj hd).2.symm⟩
    | cons b d => exact absurd ((List.cons.inj hd).2 ▸ List.mem_append_right d List.mem_cons_self) hw

/-- The text after the last separator of a kind is unique. -/
theorem append_last_inj {p : α → Bool} {b : α} (hv : ∀ c ∈ v, p c = false) (hw : ∀ c ∈ w, p c = false)
    (ha : p a = true) (hb : p b = true) (h : x ++ a :: v = z ++ b :: w) : x = z ∧ a = b ∧ v = w := by
  obtain ⟨d, hz, hw'⟩ | ⟨d, hx, hv'⟩ := List.append_eq_append_iff.mp h
  · cases d with
    | nil =>
      obtain ⟨rfl, rfl⟩ := List.cons.inj hw'
      exact ⟨by rw [hz, List.append_nil], rfl, rfl⟩
    | cons c d =>
      obtain ⟨-, rfl⟩ := List.cons.inj hw'
      exact absurd (hv b (List.mem_append_right d List.mem_cons_self)) (by rw [hb]; decide)
  · cases d with
    | nil =>
      obtain ⟨rfl, rfl⟩ := List.cons.inj hv'
      exact ⟨by rw [hx, List.append_nil], rfl, rfl⟩
    | cons c d =>
      obtain ⟨-, rfl⟩ := List.cons.inj hv'
      exact absurd (hw a (List.mem_append_right d List.mem_cons_self)) (by rw [ha]; decide)

end Obliguard

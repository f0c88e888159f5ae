import Mathlib.Order.Antichain
import Mathlib.Order.Minimal

/-!
# Antichains that cover a set

A set of which only the maximal elements are kept: `Covers top hidden` says that `top` is an
antichain and that every element of `hidden` lies strictly below one of `top`. Then `top` is the set
of maximal elements of both together, `Covers.maximal_iff`. `Covers.insert` is the step that puts a
new element on top and hides what it contains, `Covers.hide` the one that hides it at once.
-/

namespace Obliguard.Cover

variable {α : Type*} [PartialOrder α]

/-- `top` is an antichain, and every element of `hidden` is strictly below one of `top`. -/
structure Covers (top hidden : Set α) : Prop where
  antichain : IsAntichain (· ≤ ·) top
  below : ∀ x ∈ hidden, ∃ y ∈ top, x < y

variable {top hidden : Set α}

theorem Covers.disjoint (h : Covers top hidden) {x : α} (hx : x ∈ hidden) : x ∉ top := by
  intro hx'
  obtain ⟨y, hy, hlt⟩ := h.below x hx
  exact hlt.ne (h.antichain.eq hx' hy hlt.le)

/-- The top is the set of the maximal elements. -/
theorem Covers.maximal_iff (h : Covers top hidden) {x : α} :
    Maximal (fun y => y ∈ top ∨ y ∈ hidden) x ↔ x ∈ top := by
  constructor
  · rintro ⟨hx | hx, hmax⟩
    · exact hx
    · obtain ⟨y, hy, hlt⟩ := h.below x hx
      exact absurd (hmax (Or.inl hy) hlt.le) hlt.not_ge
  · intro hx
    refine ⟨Or.inl hx, ?_⟩
    rintro y (hy | hy) hle
    · exact (h.antichain.eq hx hy hle).ge
    · obtain ⟨z, hz, hlt⟩ := h.below y hy
      exact absurd (h.antichain.eq hx hz (hle.trans hlt.le)) (hle.trans_lt hlt).ne

/-- Removing elements from the top, and the hidden ones that lose their cover. -/
theorem Covers.mono (h : Covers top hidden) {top' hidden' : Set α} (ht : top' ⊆ top)
    (hh : ∀ x ∈ hidden', ∃ y ∈ top', x < y) : Covers top' hidden' :=
  ⟨h.antichain.subset ht, hh⟩

/-- Hiding a further element that is covered. -/
theorem Covers.hide (h : Covers top hidden) {x : α} (hx : ∃ y ∈ top, x < y) :
    Covers top (insert x hidden) := by
  refine ⟨h.antichain, ?_⟩
  rintro y (rfl | hy)
  · exact hx
  · exact h.below y hy

/-- Putting an uncovered element on top; what lies below it moves to the hidden ones. -/
theorem Covers.insert (h : Covers top hidden) {x : α} (hx : ∀ y ∈ top, ¬ x ≤ y) :
    Covers (Insert.insert x {y ∈ top | ¬ y < x}) ({y ∈ hidden | y ≠ x} ∪ {y ∈ top | y < x}) := by
  refine ⟨?_, ?_⟩
  · rintro y (rfl | ⟨hy, hyx⟩) z (rfl | ⟨hz, hzx⟩) hne
    · exact absurd rfl hne
    · exact hx z hz
    · exact fun hle => hyx (lt_of_le_of_ne hle hne)
    · exact h.antichain hy hz hne
  · rintro y (⟨hy, -⟩ | ⟨-, hyx⟩)
    · obtain ⟨z, hz, hlt⟩ := h.below y hy
      by_cases hzx : z < x
      · exact ⟨x, Or.inl rfl, hlt.trans hzx⟩
      · exact ⟨z, Or.inr ⟨hz, hzx⟩, hlt⟩
    · exact ⟨x, Or.inl rfl, hyx⟩

end Obliguard.Cover

import Mathlib.Data.List.Nodup
import Mathlib.Tactic.Common

/-!
# Window ranking

The functions `first_value` and `row_number` over a window `PARTITION BY key ORDER BY le`. The partition of a
row is sorted by a total order, so its first row is the least one (`firstValue_spec`), and the rows with a number
above one are the others (`one_lt_rowNumber`).
-/

namespace Obliguard.Window

variable {α κ : Type} [DecidableEq κ] (key : α → κ) (le : α → α → Bool) (rows : List α)

/-- The rows of a partition, in their order. -/
def partition (k : κ) : List α := (rows.filter fun r => key r = k).mergeSort le

def firstValue (r : α) : Option α := (partition key le rows (key r)).head?

def rowNumber [DecidableEq α] (r : α) : Nat := (partition key le rows (key r)).idxOf r + 1

variable {key le rows} {r k : α}

theorem mem_partition {c : κ} : r ∈ partition key le rows c ↔ r ∈ rows ∧ key r = c := by
  rw [partition, List.mem_mergeSort, List.mem_filter, decide_eq_true_eq]

theorem idxOf_eq_zero [DecidableEq α] {l : List α} (hr : r ∈ l) : l.idxOf r = 0 ↔ l.head? = some r := by
  cases l with
  | nil => contradiction
  | cons a l =>
    rw [List.head?_cons, Option.some.injEq]
    by_cases ha : a = r
    · rw [ha, List.idxOf_cons_self]
      exact iff_of_true rfl rfl
    · rw [List.idxOf_cons_ne _ ha]
      exact iff_of_false (Nat.succ_ne_zero _) ha

/-- A number above one is that of a row that is not the first of its partition. -/
theorem one_lt_rowNumber [DecidableEq α] (hr : r ∈ rows) :
    1 < rowNumber key le rows r ↔ firstValue key le rows r ≠ some r := by
  have hmem : r ∈ partition key le rows (key r) := mem_partition.mpr ⟨hr, rfl⟩
  rw [firstValue, ne_eq, ← idxOf_eq_zero hmem, rowNumber]
  omega

variable (trans : ∀ a b c, le a b = true → le b c = true → le a c = true)
  (total : ∀ a b, (le a b || le b a) = true)
include trans total

/-- The first row of a partition is one of it, and the least. -/
theorem firstValue_spec (hr : r ∈ rows) : ∃ k, firstValue key le rows r = some k ∧ k ∈ rows ∧ key k = key r ∧
    ∀ b ∈ rows, key b = key r → le k b = true := by
  have hmem : r ∈ partition key le rows (key r) := mem_partition.mpr ⟨hr, rfl⟩
  have hsorted : (partition key le rows (key r)).Pairwise fun a b => le a b = true :=
    List.pairwise_mergeSort trans total _
  rw [firstValue]
  cases hpart : partition key le rows (key r) with
  | nil =>
    rw [hpart] at hmem
    contradiction
  | cons k l =>
    have hk : k ∈ partition key le rows (key r) := by
      rw [hpart]
      exact List.mem_cons_self
    obtain ⟨hk, hkey⟩ := mem_partition.mp hk
    refine ⟨k, rfl, hk, hkey, ?_⟩
    intro b hb hbkey
    have hb : b ∈ k :: l := hpart ▸ mem_partition.mpr ⟨hb, hbkey⟩
    rw [hpart, List.pairwise_cons] at hsorted
    rcases List.mem_cons.mp hb with rfl | hb
    · exact or_self_iff.mp (Bool.or_eq_true _ _ ▸ total b b)
    · exact hsorted.1 b hb

end Obliguard.Window

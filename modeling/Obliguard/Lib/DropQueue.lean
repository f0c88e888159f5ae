import Mathlib.Data.List.Basic
import Mathlib.Tactic.Common
import Obliguard.Lib.Runs

/-!
# Bounded queues that drop their oldest elements

A queue of at most `capacity` elements, oldest first, from which batches are taken at the front and
to which a batch may be put back; whatever does not fit is dropped at the front and counted. The
`Ledger` keeps, beside the queue, the batch that is out, the elements taken for good and every
element that was ever pushed.

`run_balanced`: elements leave in the order they came, and each one is queued, in a batch, or counted
as dropped.
-/

namespace Obliguard.DropQueue

open Runs

variable {α : Type}

/-- The newest `n` elements. -/
def keepNewest (n : Nat) (l : List α) : List α := l.drop (l.length - n)

theorem length_keepNewest (n : Nat) (l : List α) : (keepNewest n l).length = min n l.length := by
  rw [keepNewest, List.length_drop]
  omega

theorem keepNewest_of_le {n : Nat} {l : List α} (h : l.length ≤ n) : keepNewest n l = l := by
  rw [keepNewest, Nat.sub_eq_zero_of_le h, List.drop_zero]

theorem keepNewest_keepNewest_append (n : Nat) (l m : List α) :
    keepNewest n (keepNewest n l ++ m) = keepNewest n (l ++ m) := by
  have happend : keepNewest n l ++ m = (l ++ m).drop (l.length - n) :=
    (List.drop_append_of_le_length (Nat.sub_le _ _)).symm
  rw [happend, keepNewest, keepNewest, List.drop_drop, List.length_drop, List.length_append]
  congr 1
  omega

theorem keepNewest_append_keepNewest (n : Nat) (l m : List α) :
    keepNewest n (l ++ keepNewest n m) = keepNewest n (l ++ m) := by
  rcases Nat.le_total m.length n with h | h
  · rw [keepNewest_of_le h]
  · have hlen : (keepNewest n m).length = n := by rw [length_keepNewest, Nat.min_eq_left h]
    have hcut : (l ++ keepNewest n m).length - n = l.length := by
      rw [List.length_append, hlen]
      omega
    have hcut' : (l ++ m).length - n = l.length + (m.length - n) := by
      rw [List.length_append]
      omega
    rw [keepNewest, hcut, List.drop_left, keepNewest, keepNewest, hcut', ← List.drop_drop, List.drop_left]

theorem append_keepNewest_sublist (n : Nat) (l m : List α) :
    (l ++ keepNewest n m).Sublist (l ++ m) :=
  (List.Sublist.refl l).append (List.drop_sublist _ _)

/-- A queue with the history of its elements. -/
structure Ledger (α : Type) where
  items : List α
  /-- Dropped and not yet reported. -/
  dropped : Nat
  /-- The batch that is out. -/
  out : List α
  /-- Elements of batches that were not put back. -/
  gone : List α
  pushed : List α
  /-- Dropped and reported. -/
  taken : Nat

/-- The empty queue. -/
def Ledger.empty : Ledger α := ⟨[], 0, [], [], [], 0⟩

inductive Action (α : Type)
  | push (elems : List α)
  | pop (n : Nat)
  /-- The batch that is out is put back, with part of the reported count. -/
  | requeue (dropped : Nat)
  /-- The batch that is out is not put back. -/
  | settle
  | takeDropped

/-- One operation; at most one batch is out. -/
def ledgerStep (capacity : Nat) (s : Ledger α) : Action α → Option (Ledger α)
  | .push elems => some { s with
      items := keepNewest capacity (s.items ++ elems)
      dropped := s.dropped + ((s.items ++ elems).length - capacity)
      pushed := s.pushed ++ elems }
  | .pop n =>
    if s.out = [] then some { s with items := s.items.drop n, out := s.items.take n } else none
  | .requeue dropped =>
    if dropped ≤ s.taken then some { s with
      items := keepNewest capacity (s.out ++ s.items)
      dropped := s.dropped + dropped + ((s.out ++ s.items).length - capacity)
      out := []
      taken := s.taken - dropped }
    else none
  | .settle => some { s with out := [], gone := s.gone ++ s.out }
  | .takeDropped => some { s with dropped := 0, taken := s.taken + s.dropped }

/-- The queue is within its capacity, elements leave in the order they came, and every element
pushed is accounted for once. -/
structure Balanced (capacity : Nat) (s : Ledger α) : Prop where
  bound : s.items.length ≤ capacity
  order : (s.gone ++ s.out ++ s.items).Sublist s.pushed
  count : (s.gone ++ s.out ++ s.items).length + (s.taken + s.dropped) = s.pushed.length

theorem Balanced.empty (capacity : Nat) : Balanced capacity (Ledger.empty : Ledger α) :=
  ⟨Nat.zero_le _, List.Sublist.refl _, rfl⟩

theorem ledgerStep_balanced {capacity : Nat} {s s' : Ledger α} {a : Action α}
    (h : Balanced capacity s) (hs : ledgerStep capacity s a = some s') : Balanced capacity s' := by
  have hcount := h.count
  simp only [List.length_append] at hcount
  cases a with
  | push elems =>
    rw [← Option.some.inj hs]
    refine ⟨?_, ?_, ?_⟩
    · simp only [length_keepNewest]
      omega
    · refine (append_keepNewest_sublist _ _ _).trans ?_
      rw [← List.append_assoc]
      exact h.order.append (List.Sublist.refl elems)
    · simp only [List.length_append, length_keepNewest]
      omega
  | pop n =>
    simp only [ledgerStep] at hs
    split at hs
    · rename_i hout
      rw [← Option.some.inj hs]
      have horder := h.order
      rw [hout, List.append_nil] at horder
      refine ⟨?_, ?_, ?_⟩
      · have := h.bound
        simp only [List.length_drop]
        omega
      · simpa only [List.append_assoc, List.take_append_drop] using horder
      · simp only [hout, List.length_nil, List.length_append, List.length_take,
          List.length_drop] at hcount ⊢
        omega
    · contradiction
  | requeue dropped =>
    simp only [ledgerStep] at hs
    split at hs
    · rw [← Option.some.inj hs]
      refine ⟨?_, ?_, ?_⟩
      · simp only [length_keepNewest]
        omega
      · simp only [List.append_nil]
        refine (append_keepNewest_sublist _ _ _).trans ?_
        rw [← List.append_assoc]
        exact h.order
      · simp only [List.length_append, length_keepNewest, List.length_nil]
        omega
    · contradiction
  | settle =>
    rw [← Option.some.inj hs]
    refine ⟨h.bound, ?_, ?_⟩
    · simpa only [List.append_nil] using h.order
    · simp only [List.length_append, List.length_nil]
      omega
  | takeDropped =>
    rw [← Option.some.inj hs]
    refine ⟨h.bound, h.order, ?_⟩
    simp only [List.length_append]
    omega

/-- Every run of the empty queue. -/
theorem run_balanced {capacity : Nat} {s : Ledger α} {as : List (Action α)}
    (h : run (ledgerStep capacity) Ledger.empty as = some s) : Balanced capacity s :=
  run_preserves (fun _ _ _ hs ht => ledgerStep_balanced hs ht) (Balanced.empty capacity) h

end Obliguard.DropQueue

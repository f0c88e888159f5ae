import Mathlib.Data.List.Induction
import Mathlib.Tactic.Common

/-!
# Budgets along a trace

A trace of events, some of which spend from a budget and some of which restore it. `since` counts
what has been spent since the last restore. `Within n` says that this never exceeded `n`, at any
point of the trace; it bounds every stretch without a restore (`Within.stretch`), and one has to
check it at the last event only (`within_append_singleton`).
-/

namespace Obliguard.Budget

variable {ε : Type} {spends restores : ε → Bool}

/-- What has been spent since the last restore. -/
def since (spends restores : ε → Bool) (log : List ε) : Nat :=
  log.foldl (fun n e => if restores e then 0 else if spends e then n + 1 else n) 0

theorem since_append_singleton (log : List ε) (e : ε) : since spends restores (log ++ [e]) =
    if restores e then 0 else if spends e then since spends restores log + 1
    else since spends restores log := by
  rw [since, List.foldl_append]
  rfl

theorem since_append {log mid : List ε} (h : ∀ e ∈ mid, restores e = false) :
    since spends restores (log ++ mid) = since spends restores log + mid.countP spends := by
  induction mid using List.reverseRecOn with
  | nil => simp
  | append_singleton mid e ih =>
    have hmid := ih fun a ha => h a (List.mem_append_left _ ha)
    rw [← List.append_assoc, since_append_singleton, h e (by simp), hmid, List.countP_append,
      List.countP_singleton]
    split
    · contradiction
    · split
      · omega
      · omega

theorem since_append_le {log l : List ε} (h : ∀ e ∈ l, spends e = false) :
    since spends restores (log ++ l) ≤ since spends restores log := by
  induction l using List.reverseRecOn with
  | nil => simp
  | append_singleton l e ih =>
    have hl := ih fun a ha => h a (List.mem_append_left _ ha)
    rw [← List.append_assoc, since_append_singleton, h e (by simp)]
    split
    · omega
    · split
      · contradiction
      · exact hl

theorem since_append_eq_zero {log l : List ε} (h : ∀ e ∈ l, spends e = false)
    (hr : ∃ e ∈ l, restores e = true) : since spends restores (log ++ l) = 0 := by
  obtain ⟨e, he, hr⟩ := hr
  obtain ⟨pre, post, rfl⟩ := List.append_of_mem he
  have hle : since spends restores ((log ++ (pre ++ [e])) ++ post) ≤
      since spends restores (log ++ (pre ++ [e])) :=
    since_append_le fun a ha => h a (by simp [ha])
  rw [← List.append_assoc log pre, since_append_singleton, if_pos hr] at hle
  have hsplit : log ++ (pre ++ e :: post) = ((log ++ pre) ++ [e]) ++ post := by simp
  rw [hsplit]
  omega

/-- At every point of the trace at most `n` has been spent since the last restore. -/
def Within (spends restores : ε → Bool) (n : Nat) (log : List ε) : Prop :=
  ∀ pre post, log = pre ++ post → since spends restores pre ≤ n

theorem within_nil (n : Nat) : Within spends restores n [] := by
  intro pre post h
  obtain ⟨rfl, -⟩ := List.append_eq_nil_iff.mp h.symm
  exact Nat.zero_le n

theorem within_append_singleton {n : Nat} {log : List ε} {e : ε} (h : Within spends restores n log)
    (he : since spends restores (log ++ [e]) ≤ n) : Within spends restores n (log ++ [e]) := by
  intro pre post heq
  rcases List.eq_nil_or_concat post with rfl | ⟨post, a, rfl⟩
  · rw [List.append_nil] at heq
    rw [← heq]
    exact he
  · rw [List.concat_eq_append, ← List.append_assoc] at heq
    exact h pre post (List.append_inj' heq rfl).1

/-- Events that spend nothing keep a trace within its budget. -/
theorem Within.append {n : Nat} {log l : List ε} (h : Within spends restores n log)
    (hl : ∀ e ∈ l, spends e = false) : Within spends restores n (log ++ l) := by
  induction l using List.reverseRecOn with
  | nil => simpa using h
  | append_singleton l e ih =>
    rw [← List.append_assoc]
    apply within_append_singleton (ih fun a ha => hl a (List.mem_append_left _ ha))
    rw [List.append_assoc]
    exact Nat.le_trans (since_append_le hl) (h log [] (List.append_nil log).symm)

/-- Every stretch without a restore spends at most the budget. -/
theorem Within.stretch {n : Nat} {pre mid post : List ε}
    (h : Within spends restores n (pre ++ mid ++ post)) (hmid : ∀ e ∈ mid, restores e = false) :
    mid.countP spends ≤ n := by
  have hle := h (pre ++ mid) post rfl
  rw [since_append hmid] at hle
  omega

end Obliguard.Budget

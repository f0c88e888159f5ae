import Mathlib.Data.Finset.Card
import Mathlib.Data.List.Induction
import Obliguard.Lib.DropQueue

/-!
# Memories of the newest keys

A memory that holds the newest `n` keys and takes a key only while it does not hold it. The log of
the keys it took is then `Admissible`, and `Admissible.spaced` says how far apart two occurrences of
one key are.
-/

namespace Obliguard.Recent

open DropQueue

variable {κ : Type} {n : Nat} {log : List κ} {k : κ}

/-- No key of the log was among the newest `n` when it came. -/
def Admissible (n : Nat) (log : List κ) : Prop :=
  ∀ pre k post, log = pre ++ k :: post → k ∉ keepNewest n pre

theorem Admissible.nil : Admissible n ([] : List κ) := by
  intro pre k post h
  simp at h

theorem Admissible.snoc (h : Admissible n log) (hk : k ∉ keepNewest n log) :
    Admissible n (log ++ [k]) := by
  intro pre k' post hlog
  rcases List.eq_nil_or_concat post with rfl | ⟨post, k'', rfl⟩
  · obtain ⟨rfl, hkk⟩ := List.append_inj' hlog rfl
    rw [List.singleton_inj] at hkk
    exact hkk ▸ hk
  · have hlog : log ++ [k] = (pre ++ k' :: post) ++ [k''] := by
      rw [hlog, List.concat_eq_append, List.append_assoc, List.cons_append]
    exact h pre k' post (List.append_inj' hlog rfl).1

theorem keepNewest_snoc_sublist (n : Nat) (log : List κ) (k : κ) :
    (keepNewest n (log ++ [k])).Sublist (keepNewest n log ++ [k]) := by
  have hdrop : (log ++ [k]).drop (log.length - n) = keepNewest n log ++ [k] :=
    List.drop_append_of_le_length (Nat.sub_le _ _)
  rw [← hdrop, keepNewest, List.length_append, List.length_singleton]
  exact List.drop_sublist_drop_left _ (by omega)

theorem keepNewest_snoc (n : Nat) (log : List κ) (k : κ) :
    keepNewest n (keepNewest n log ++ [k]) = keepNewest n (log ++ [k]) := by
  have hdrop : keepNewest n log ++ [k] = (log ++ [k]).drop (log.length - n) :=
    (List.drop_append_of_le_length (Nat.sub_le _ _)).symm
  rw [hdrop, keepNewest, keepNewest, List.drop_drop, List.length_drop, List.length_append,
    List.length_singleton]
  congr 1
  omega

theorem Admissible.nodup_newest (h : Admissible n log) : (keepNewest n log).Nodup := by
  induction log using List.reverseRecOn with
  | nil => simp [keepNewest]
  | append_singleton log k ih =>
    have hlog : Admissible n log := by
      intro pre k' post hl
      exact h pre k' (post ++ [k]) (by rw [hl, List.append_assoc, List.cons_append])
    refine (keepNewest_snoc_sublist n log k).nodup ?_
    rw [List.nodup_append]
    refine ⟨ih hlog, List.nodup_singleton k, ?_⟩
    intro a ha b hb
    rw [List.mem_singleton.mp hb]
    intro hab
    exact h log k [] rfl (hab ▸ ha)

/-- Between two occurrences of a key come `n` other distinct ones. -/
theorem Admissible.spaced [DecidableEq κ] (h : Admissible n log) {pre mid post : List κ}
    (hlog : log = pre ++ k :: (mid ++ k :: post)) : n ≤ (mid.toFinset.erase k).card := by
  have hsplit : log = (pre ++ k :: mid) ++ k :: post := by
    rw [hlog, List.append_assoc, List.cons_append]
  have hk := h _ _ _ hsplit
  have hprefix : Admissible n (pre ++ k :: mid) := by
    intro pre' k' post' hl
    exact h pre' k' (post' ++ k :: post) (by rw [hsplit, hl, List.append_assoc, List.cons_append])
  have hlen : n ≤ mid.length := by
    by_contra hlt
    apply hk
    rw [keepNewest, List.length_append, List.length_cons]
    have hle : pre.length + (mid.length + 1) - n ≤ pre.length := by omega
    rw [List.drop_append_of_le_length hle]
    exact List.mem_append_right _ List.mem_cons_self
  -- so the newest keys all came after the first occurrence
  have hnewest : keepNewest n (pre ++ k :: mid) = keepNewest n mid := by
    have hskip : pre.length + (mid.length + 1) - n = (pre ++ [k]).length + (mid.length - n) := by
      rw [List.length_append, List.length_singleton]
      omega
    have happend : pre ++ k :: mid = (pre ++ [k]) ++ mid := by rw [List.append_assoc]; rfl
    rw [keepNewest, keepNewest, List.length_append, List.length_cons, hskip, happend,
      List.drop_length_add_append]
  rw [hnewest] at hk
  have hnodup := hprefix.nodup_newest
  rw [hnewest] at hnodup
  have hcard : (keepNewest n mid).toFinset.card = n := by
    rw [List.toFinset_card_of_nodup hnodup, length_keepNewest]
    omega
  rw [← hcard]
  apply Finset.card_le_card
  intro a ha
  rw [List.mem_toFinset] at ha
  rw [Finset.mem_erase, List.mem_toFinset]
  refine ⟨?_, List.mem_of_mem_drop ha⟩
  intro hak
  exact hk (hak ▸ ha)

theorem Admissible.spaced_getElem? [DecidableEq κ] (h : Admissible n log) {i j : Nat}
    (hi : log[i]? = some k) (hj : log[j]? = some k) (hij : i < j) :
    n ≤ (((log.take j).drop (i + 1)).toFinset.erase k).card := by
  obtain ⟨hjlt, hj⟩ := List.getElem?_eq_some_iff.mp hj
  have hitake : (log.take j)[i]? = some k := by rw [List.getElem?_take_of_lt hij, hi]
  obtain ⟨hilt, hi⟩ := List.getElem?_eq_some_iff.mp hitake
  have houter : log = log.take j ++ k :: log.drop (j + 1) := by
    rw [← hj, ← List.drop_eq_getElem_cons hjlt, List.take_append_drop]
  have hinner : log.take j = (log.take j).take i ++ k :: (log.take j).drop (i + 1) := by
    conv_lhs => rw [← List.take_append_drop i (log.take j), List.drop_eq_getElem_cons hilt, hi]
  have hsplit : log = (log.take j).take i ++
      k :: ((log.take j).drop (i + 1) ++ k :: log.drop (j + 1)) := by
    conv_lhs => rw [houter, hinner]
    rw [List.append_assoc, List.cons_append]
  exact h.spaced hsplit

end Obliguard.Recent

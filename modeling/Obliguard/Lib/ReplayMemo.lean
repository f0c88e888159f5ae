import Obliguard.Lib.Keyed

/-!
# Replay memories

A bounded memory of keys with expiry times, in the order they were taken: a key that is remembered and not
yet past its expiry by more than `grace` is refused, every other one is remembered. When `n` keys are there,
the dead ones are forgotten, and then the oldest ones until there is room.

`Holds k e m` says that the key is remembered with at most `m` younger ones. Each key taken adds one, so it is
not forgotten while it is alive before `n` other keys came (`Holds.remember`).
-/

namespace Obliguard

/-- Keys and expiry times, oldest first. -/
abbrev ReplayMemo (κ : Type) := Keyed (Prod.fst : κ × Int → κ)

namespace ReplayMemo

variable {κ : Type}

/-- The rows that stay. -/
def keep (memo : ReplayMemo κ) (rows : List (κ × Int)) (h : rows.Sublist memo.rows) : ReplayMemo κ :=
  ⟨rows, memo.nodup.sublist (h.map Prod.fst)⟩

/-- The oldest row is dropped while there are `n` rows. -/
def evictRows (n : Nat) : List (κ × Int) → List (κ × Int)
  | [] => []
  | r :: rows => if n ≤ (r :: rows).length then evictRows n rows else r :: rows

theorem evictRows_suffix (n : Nat) (rows : List (κ × Int)) : evictRows n rows <:+ rows := by
  induction rows with
  | nil => exact List.suffix_refl []
  | cons r rows ih =>
    rw [evictRows]
    split
    · exact ih.trans (List.suffix_cons r rows)
    · exact List.suffix_refl _

theorem evictRows_append {n : Nat} (pre : List (κ × Int)) {post : List (κ × Int)} (r : κ × Int)
    (h : post.length + 1 < n) : ∃ pre', evictRows n (pre ++ r :: post) = pre' ++ r :: post := by
  induction pre with
  | nil =>
    refine ⟨[], ?_⟩
    rw [List.nil_append, evictRows, if_neg]
    rw [List.length_cons]
    omega
  | cons x pre ih =>
    rw [List.cons_append, evictRows]
    split
    · exact ih
    · exact ⟨x :: pre, rfl⟩

/-- The dead rows are dropped, and then the oldest ones while there are `n`. -/
def evict (n : Nat) (grace now : Int) (memo : ReplayMemo κ) : ReplayMemo κ :=
  memo.keep (evictRows n (memo.rows.filter fun r => ¬ r.2 + grace < now))
    ((evictRows_suffix _ _).sublist.trans List.filter_sublist)

def makeRoom (n : Nat) (grace now : Int) (memo : ReplayMemo κ) : ReplayMemo κ :=
  if n ≤ memo.rows.length then memo.evict n grace now else memo

section remember
variable [DecidableEq κ]

/-- The key is the youngest one now. -/
def put (memo : ReplayMemo κ) (k : κ) (e : Int) : ReplayMemo κ :=
  (memo.keep (memo.rows.filter fun r => r.1 ≠ k) List.filter_sublist).insert (k, e) (by
    rw [Keyed.find_eq_none]
    intro r hr
    exact of_decide_eq_true (List.mem_filter.mp hr).2)

/-- `none` where the key is refused. -/
def remember (n : Nat) (grace : Int) (memo : ReplayMemo κ) (k : κ) (e now : Int) : Option (ReplayMemo κ) :=
  if (memo.find k).any fun r => now ≤ r.2 + grace then none
  else some ((memo.makeRoom n grace now).put k e)

end remember

/-! ## How long a key is remembered -/

/-- The key is remembered, with at most `m` younger ones. -/
def Holds (memo : ReplayMemo κ) (k : κ) (e : Int) (m : Nat) : Prop :=
  ∃ pre post, memo.rows = pre ++ (k, e) :: post ∧ post.length ≤ m

section holds
variable {memo memo' : ReplayMemo κ} {k k' : κ} {e e' now grace : Int} {n m : Nat}

theorem Holds.makeRoom (h : memo.Holds k e m) (hlive : now ≤ e + grace) (hroom : m + 1 < n) :
    (memo.makeRoom n grace now).Holds k e m := by
  obtain ⟨pre, post, hrows, hlen⟩ := h
  rw [ReplayMemo.makeRoom]
  split
  · have hfilter : memo.rows.filter (fun r => ¬ r.2 + grace < now) =
        pre.filter (fun r => ¬ r.2 + grace < now) ++ (k, e) :: post.filter fun r => ¬ r.2 + grace < now := by
      rw [hrows, List.filter_append, List.filter_cons_of_pos]
      exact decide_eq_true (Int.not_lt.mpr hlive)
    have hpost : (post.filter fun r => ¬ r.2 + grace < now).length ≤ m :=
      Nat.le_trans (List.length_filter_le _ _) hlen
    obtain ⟨pre', hpre'⟩ := evictRows_append (pre.filter fun r => ¬ r.2 + grace < now) (k, e)
      (Nat.lt_of_le_of_lt (Nat.succ_le_succ hpost) hroom)
    refine ⟨pre', _, ?_, hpost⟩
    show evictRows n _ = _
    rw [hfilter, hpre']
  · exact ⟨pre, post, hrows, hlen⟩

variable [DecidableEq κ]

theorem Holds.put (h : memo.Holds k e m) (hne : k ≠ k') : (memo.put k' e').Holds k e (m + 1) := by
  obtain ⟨pre, post, hrows, hlen⟩ := h
  refine ⟨pre.filter fun r => r.1 ≠ k', (post.filter fun r => r.1 ≠ k') ++ [(k', e')], ?_, ?_⟩
  · show memo.rows.filter _ ++ [(k', e')] = _
    rw [hrows, List.filter_append, List.filter_cons, if_pos (decide_eq_true hne), List.append_assoc,
      List.cons_append]
  · rw [List.length_append, List.length_singleton]
    exact Nat.succ_le_succ (Nat.le_trans (List.length_filter_le _ _) hlen)

theorem holds_put (memo : ReplayMemo κ) (k : κ) (e : Int) : (memo.put k e).Holds k e 0 :=
  ⟨_, [], rfl, Nat.le_refl 0⟩

theorem Holds.find (h : memo.Holds k e m) : memo.find k = some (k, e) := by
  obtain ⟨pre, post, hrows, -⟩ := h
  rw [Keyed.find_eq_some, hrows]
  exact ⟨List.mem_append_right _ List.mem_cons_self, rfl⟩

theorem Holds.refused (h : memo.Holds k e m) (hlive : now ≤ e + grace) :
    remember n grace memo k e' now = none := by
  rw [remember, h.find]
  exact if_pos (decide_eq_true hlive)

theorem remember_eq_some (h : remember n grace memo k e now = some memo') :
    memo' = (memo.makeRoom n grace now).put k e := by
  rw [remember] at h
  split at h
  · contradiction
  · exact (Option.some.inj h).symm

/-- A key that is taken while another one is alive. -/
theorem Holds.remember (h : memo.Holds k e m) (hlive : now ≤ e + grace)
    (htaken : remember n grace memo k' e' now = some memo') (hroom : m + 1 < n) :
    memo'.Holds k e (m + 1) := by
  have hne : k ≠ k' := by
    rintro rfl
    rw [h.refused hlive] at htaken
    contradiction
  rw [remember_eq_some htaken]
  exact (h.makeRoom hlive hroom).put hne

end holds

end ReplayMemo

end Obliguard

import Mathlib.Data.List.DropRight
import Mathlib.Tactic.Common

/-!
# Lines and the blanks after them

A text is split into lines at a separator, which is one of its blanks. The blanks at the end of a text belong to its
last lines: dropping them changes no line but for the blanks at its end, and takes empty lines away
(`any_splitOn_rdropWhile`, `trimmed_filter_splitOn`).

A text that grows is read by its complete lines, those that a separator ends: reading on from the end of one gives the
lines that follow (`complete_append`).
-/

namespace Obliguard.Lines

variable {α : Type} [DecidableEq α] {sep : α} {blank : α → Bool} {q : List α → Bool}

/-- The text of lines, without the blanks at its end. -/
def trimmed (sep : α) (blank : α → Bool) (ls : List (List α)) : List α := ([sep].intercalate ls).rdropWhile blank

/-- What holds of a line does not depend on the blanks at its end. -/
def TrimInvariant (sep : α) (blank : α → Bool) (q : List α → Bool) : Prop :=
  ∀ l c, blank c = true → c ≠ sep → q (l ++ [c]) = q l

/-! ## Splitting -/

theorem splitOn_concat_sep (t : List α) : (t ++ [sep]).splitOn sep = t.splitOn sep ++ [[]] :=
  List.splitOn_append_cons_self t []

theorem splitOn_concat {c : α} (hc : c ≠ sep) (t : List α) :
    ∃ pre last, t.splitOn sep = pre ++ [last] ∧ (t ++ [c]).splitOn sep = pre ++ [last ++ [c]] := by
  induction t with
  | nil => exact ⟨[], [], rfl, List.splitOn_eq_singleton (by simpa using hc.symm)⟩
  | cons x t ih =>
    obtain ⟨pre, last, hsplit, hconcat⟩ := ih
    rw [List.cons_append, List.splitOn_cons_eq_if_modifyHead, List.splitOn_cons_eq_if_modifyHead, hsplit, hconcat]
    split
    · exact ⟨[] :: pre, last, rfl, rfl⟩
    · cases pre with
      | nil => exact ⟨[], x :: last, rfl, rfl⟩
      | cons l pre => exact ⟨(x :: l) :: pre, last, rfl, rfl⟩

theorem sep_not_mem_of_mem_splitOn (t : List α) : ∀ l ∈ t.splitOn sep, sep ∉ l := by
  induction t with
  | nil => simp
  | cons x t ih =>
    rw [List.splitOn_cons_eq_if_modifyHead]
    split
    · rintro l hl
      rcases List.mem_cons.mp hl with rfl | hl
      · exact List.not_mem_nil
      · exact ih l hl
    · rename_i hx
      cases hsplit : t.splitOn sep with
      | nil => simp
      | cons l ls =>
        rw [hsplit] at ih
        obtain ⟨hl, hls⟩ := List.forall_mem_cons.mp ih
        rw [List.modifyHead_cons]
        refine List.forall_mem_cons.mpr ⟨?_, hls⟩
        rintro hmem
        rcases List.mem_cons.mp hmem with rfl | hmem
        · exact hx (beq_self_eq_true _)
        · exact hl hmem

omit [DecidableEq α] in
theorem intercalate_concat {ls : List (List α)} (h : ls ≠ []) (l : List α) :
    [sep].intercalate (ls ++ [l]) = [sep].intercalate ls ++ sep :: l := by
  induction ls with
  | nil => contradiction
  | cons x ls ih =>
    cases ls with
    | nil => simp
    | cons y ls =>
      have hrest := ih (List.cons_ne_nil y ls)
      simp only [List.cons_append, List.intercalate_cons_cons] at hrest ⊢
      rw [hrest, List.append_assoc, List.append_assoc, List.append_assoc]

omit [DecidableEq α] in
theorem mem_intercalate {ls : List (List α)} {c : α} (h : c ∈ [sep].intercalate ls) : c = sep ∨ ∃ l ∈ ls, c ∈ l := by
  induction ls with
  | nil => contradiction
  | cons x ls ih =>
    cases ls with
    | nil =>
      rw [List.intercalate_singleton] at h
      exact .inr ⟨x, List.mem_singleton_self x, h⟩
    | cons y ls =>
      rw [List.intercalate_cons_cons] at h
      rcases List.mem_append.mp h with h | h
      · rcases List.mem_append.mp h with h | h
        · exact .inr ⟨x, List.mem_cons_self, h⟩
        · exact .inl (List.mem_singleton.mp h)
      · rcases ih h with h | ⟨l, hl, hc⟩
        · exact .inl h
        · exact .inr ⟨l, List.mem_cons_of_mem x hl, hc⟩

omit [DecidableEq α] in
theorem mem_intercalate_of_mem {ls : List (List α)} {l : List α} {c : α} (hl : l ∈ ls) (hc : c ∈ l) :
    c ∈ [sep].intercalate ls := by
  induction ls with
  | nil => contradiction
  | cons x ls ih =>
    cases ls with
    | nil =>
      obtain rfl := List.mem_singleton.mp hl
      rwa [List.intercalate_singleton]
    | cons y ls =>
      rw [List.intercalate_cons_cons]
      rcases List.mem_cons.mp hl with rfl | hl
      · exact List.mem_append_left _ (List.mem_append_left _ hc)
      · exact List.mem_append_right _ (ih hl)

theorem mem_of_mem_splitOn {t l : List α} {c : α} (hl : l ∈ t.splitOn sep) (hc : c ∈ l) : c ∈ t := by
  have h : c ∈ [sep].intercalate (t.splitOn sep) := mem_intercalate_of_mem hl hc
  rwa [List.intercalate_splitOn] at h

/-! ## Blanks at the end -/

theorem any_splitOn_rdropWhile (hq : TrimInvariant sep blank q) (hnil : q [] = false) (t : List α) :
    ((t.rdropWhile blank).splitOn sep).any q = (t.splitOn sep).any q := by
  induction t using List.reverseRecOn with
  | nil => rfl
  | append_singleton t c ih =>
    by_cases hc : blank c = true
    · rw [List.rdropWhile_concat_pos _ _ _ hc, ih]
      by_cases hsep : c = sep
      · rw [hsep, splitOn_concat_sep, List.any_append]
        simp [hnil]
      · obtain ⟨pre, last, hsplit, hconcat⟩ := splitOn_concat hsep t
        rw [hsplit, hconcat, List.any_append, List.any_append]
        simp [hq last c hc hsep]
    · rw [List.rdropWhile_concat_neg _ _ _ hc]

omit [DecidableEq α] in
theorem trimmed_ends {ls : List (List α)} (h : trimmed sep blank ls ≠ []) :
    ∃ x c, trimmed sep blank ls = x ++ [c] ∧ blank c = false :=
  ⟨_, _, (List.dropLast_append_getLast h).symm, Bool.eq_false_iff.mpr (List.rdropWhile_last_not _ _ h)⟩

omit [DecidableEq α] in
theorem trimmed_concat_nil (hsep : blank sep = true) (ls : List (List α)) :
    trimmed sep blank (ls ++ [[]]) = trimmed sep blank ls := by
  cases ls with
  | nil => rfl
  | cons x ls =>
    rw [trimmed, intercalate_concat (List.cons_ne_nil x ls), List.rdropWhile_concat_pos _ _ _ hsep]
    rfl

omit [DecidableEq α] in
theorem trimmed_concat_blank {c : α} (hc : blank c = true) (ls : List (List α)) (l : List α) :
    trimmed sep blank (ls ++ [l ++ [c]]) = trimmed sep blank (ls ++ [l]) := by
  cases ls with
  | nil =>
    rw [trimmed, trimmed, List.nil_append, List.nil_append, List.intercalate_singleton, List.intercalate_singleton,
      List.rdropWhile_concat_pos _ _ _ hc]
  | cons x ls =>
    rw [trimmed, trimmed, intercalate_concat (List.cons_ne_nil x ls), intercalate_concat (List.cons_ne_nil x ls),
      ← List.cons_append, ← List.append_assoc, List.rdropWhile_concat_pos _ _ _ hc]

/-- Of the lines that are kept, the blanks at the end of the text are blanks at the end. -/
theorem trimmed_filter_splitOn (hq : TrimInvariant sep blank q) (hnil : q [] = true) (hsep : blank sep = true)
    (t : List α) : trimmed sep blank (((t.rdropWhile blank).splitOn sep).filter q) =
      trimmed sep blank ((t.splitOn sep).filter q) := by
  induction t using List.reverseRecOn with
  | nil => rfl
  | append_singleton t c ih =>
    by_cases hc : blank c = true
    · rw [List.rdropWhile_concat_pos _ _ _ hc, ih]
      by_cases hcsep : c = sep
      · rw [hcsep, splitOn_concat_sep, List.filter_append, List.filter_cons_of_pos hnil, List.filter_nil,
          trimmed_concat_nil hsep]
      · obtain ⟨pre, last, hsplit, hconcat⟩ := splitOn_concat hcsep t
        have hsame := hq last c hc hcsep
        rw [hsplit, hconcat, List.filter_append, List.filter_append]
        cases hlast : q last with
        | false =>
          rw [hlast] at hsame
          rw [List.filter_cons_of_neg (by rw [hlast]; decide), List.filter_cons_of_neg (by rw [hsame]; decide)]
        | true =>
          rw [hlast] at hsame
          rw [List.filter_cons_of_pos hlast, List.filter_cons_of_pos hsame, List.filter_nil,
            trimmed_concat_blank hc]
    · rw [List.rdropWhile_concat_neg _ _ _ hc]

/-! ## Complete lines -/

/-- The lines that a separator ends. -/
def complete (sep : α) (t : List α) : List (List α) := (t.splitOn sep).dropLast

/-- The text ends with a line. -/
def Whole (sep : α) (t : List α) : Prop := t = [] ∨ ∃ u, t = u ++ [sep]

theorem complete_append {t : List α} (h : Whole sep t) (u : List α) :
    complete sep (t ++ u) = complete sep t ++ complete sep u := by
  rcases h with rfl | ⟨v, rfl⟩
  · rfl
  · unfold complete
    rw [List.append_assoc, List.singleton_append, List.splitOn_append_cons_self,
      List.dropLast_append_of_ne_nil (List.splitOn_ne_nil sep u), splitOn_concat_sep, List.dropLast_concat]

theorem complete_of_not_mem {t : List α} (h : sep ∉ t) : complete sep t = [] := by
  rw [complete, List.splitOn_eq_singleton h]
  rfl

omit [DecidableEq α] in
theorem Whole.append {t u : List α} (ht : Whole sep t) (hu : Whole sep u) : Whole sep (t ++ u) := by
  rcases hu with rfl | ⟨v, rfl⟩
  · rwa [List.append_nil]
  · exact .inr ⟨t ++ v, (List.append_assoc t v [sep]).symm⟩

theorem whole_rdropWhile (t : List α) : Whole sep (t.rdropWhile (· ≠ sep)) := by
  by_cases h : t.rdropWhile (· ≠ sep) = []
  · exact .inl h
  · refine .inr ⟨(t.rdropWhile (· ≠ sep)).dropLast, ?_⟩
    have hlast := List.rdropWhile_last_not _ t h
    rw [decide_eq_true_eq, not_not] at hlast
    calc t.rdropWhile (· ≠ sep) = _ ++ [(t.rdropWhile (· ≠ sep)).getLast h] := (List.dropLast_append_getLast h).symm
      _ = _ ++ [sep] := by rw [hlast]

theorem not_mem_rtakeWhile {t : List α} : sep ∉ t.rtakeWhile (· ≠ sep) := by
  intro h
  have hne := List.mem_rtakeWhile_imp h
  rw [decide_eq_true_eq] at hne
  exact hne rfl

omit [DecidableEq α] in
theorem drop_rdropWhile_length (p : α → Bool) (t : List α) : t.drop (t.rdropWhile p).length = t.rtakeWhile p :=
  calc t.drop (t.rdropWhile p).length
      = (t.rdropWhile p ++ t.rtakeWhile p).drop (t.rdropWhile p).length := by rw [List.rdropWhile_append_rtakeWhile]
    _ = t.rtakeWhile p := List.drop_left

omit [DecidableEq α] in
theorem rtakeWhile_drop_length (p : α → Bool) (t : List α) (n : Nat) :
    ((t.drop n).rtakeWhile p).length ≤ (t.rtakeWhile p).length := by
  rw [List.rtakeWhile, List.rtakeWhile, List.length_reverse, List.length_reverse]
  conv_rhs => rw [← List.take_append_drop n t, List.reverse_append, List.takeWhile_append]
  split
  · rename_i hall
    rw [List.length_append, hall]
    exact Nat.le_add_right _ _
  · exact le_rfl

end Obliguard.Lines

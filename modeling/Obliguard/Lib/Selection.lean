import Mathlib.Data.List.Sort

/-!
# First elements and selections

`FirstWith P l a` says that `a` is the first element of `l` with the property `P`. What a list is built from carries
over: `append_iff`, `filterMap_iff` and `flatMap_iff`. A selection of a sorted list is the selection, sorted
(`filter_insertionSort`).
-/

namespace Obliguard

variable {α β : Type}

/-! ## First elements -/

/-- The first element of a list with a property. -/
def FirstWith (P : α → Prop) (l : List α) (a : α) : Prop := ∃ pre post, l = pre ++ a :: post ∧ P a ∧ ∀ b ∈ pre, ¬P b

namespace FirstWith
variable {P Q : α → Prop} {l l' : List α} {a b : α}

theorem mem (h : FirstWith P l a) : a ∈ l := by
  obtain ⟨pre, post, rfl, -, -⟩ := h
  exact List.mem_append_right pre List.mem_cons_self

theorem prop (h : FirstWith P l a) : P a := by
  obtain ⟨pre, post, -, ha, -⟩ := h
  exact ha

theorem not_nil : ¬FirstWith P [] a := fun h => List.not_mem_nil h.mem

theorem cons_iff : FirstWith P (b :: l) a ↔ (P b ∧ b = a) ∨ (¬P b ∧ FirstWith P l a) := by
  constructor
  · rintro ⟨pre, post, hl, ha, hpre⟩
    cases pre with
    | nil =>
      obtain ⟨rfl, rfl⟩ := List.cons.inj hl
      exact .inl ⟨ha, rfl⟩
    | cons c pre =>
      obtain ⟨rfl, rfl⟩ := List.cons.inj hl
      exact .inr ⟨hpre b List.mem_cons_self, pre, post, rfl, ha, fun c hc => hpre c (List.mem_cons_of_mem b hc)⟩
  · rintro (⟨hb, rfl⟩ | ⟨hb, pre, post, rfl, ha, hpre⟩)
    · exact ⟨[], l, rfl, hb, fun c hc => absurd hc List.not_mem_nil⟩
    · exact ⟨b :: pre, post, rfl, ha, List.forall_mem_cons.mpr ⟨hb, hpre⟩⟩

theorem unique (ha : FirstWith P l a) (hb : FirstWith P l b) : a = b := by
  induction l with
  | nil => exact absurd ha not_nil
  | cons c l ih =>
    rcases cons_iff.mp ha with ⟨hc, rfl⟩ | ⟨hc, ha⟩
    · rcases cons_iff.mp hb with ⟨-, rfl⟩ | ⟨hc', -⟩
      · rfl
      · exact absurd hc hc'
    · rcases cons_iff.mp hb with ⟨hc', -⟩ | ⟨-, hb⟩
      · exact absurd hc' hc
      · exact ih ha hb

theorem exists_iff : (∃ a, FirstWith P l a) ↔ ∃ a ∈ l, P a := by
  constructor
  · rintro ⟨a, ha⟩
    exact ⟨a, ha.mem, ha.prop⟩
  · intro h
    induction l with
    | nil =>
      obtain ⟨a, ha, -⟩ := h
      exact absurd ha List.not_mem_nil
    | cons b l ih =>
      by_cases hb : P b
      · exact ⟨b, cons_iff.mpr (.inl ⟨hb, rfl⟩)⟩
      · obtain ⟨a, ha, hP⟩ := h
        rcases List.mem_cons.mp ha with rfl | ha
        · exact absurd hP hb
        · obtain ⟨a, ha⟩ := ih ⟨a, ha, hP⟩
          exact ⟨a, cons_iff.mpr (.inr ⟨hb, ha⟩)⟩

theorem congr (h : ∀ b ∈ l, (P b ↔ Q b)) : FirstWith P l a ↔ FirstWith Q l a := by
  induction l with
  | nil => exact iff_of_false not_nil not_nil
  | cons c l ih =>
    rw [cons_iff, cons_iff, h c List.mem_cons_self, ih fun b hb => h b (List.mem_cons_of_mem c hb)]

theorem append_iff : FirstWith P (l ++ l') a ↔ FirstWith P l a ∨ (∀ b ∈ l, ¬P b) ∧ FirstWith P l' a := by
  induction l with
  | nil =>
    rw [List.nil_append, or_iff_right not_nil]
    exact ⟨fun h => ⟨fun b hb => absurd hb List.not_mem_nil, h⟩, fun h => h.2⟩
  | cons c l ih =>
    rw [List.cons_append, cons_iff, cons_iff, ih, List.forall_mem_cons]
    tauto

/-- The first element made from a list is made from the first element it can be made from. -/
theorem filterMap_iff {f : α → Option β} {P : β → Prop} {c : β} : FirstWith P (l.filterMap f) c ↔
    ∃ a, FirstWith (fun a => ∃ b, f a = some b ∧ P b) l a ∧ f a = some c := by
  induction l with
  | nil => exact iff_of_false not_nil fun ⟨_, h, _⟩ => not_nil h
  | cons b l ih =>
    cases hb : f b with
    | none =>
      rw [List.filterMap_cons_none hb, ih]
      refine exists_congr fun a => and_congr_left fun _ => ?_
      rw [cons_iff, hb]
      simp
    | some d =>
      rw [List.filterMap_cons_some hb, cons_iff, ih]
      have hmade : (∃ e, f b = some e ∧ P e) ↔ P d := by
        rw [hb]
        simp
      simp only [cons_iff, hmade]
      constructor
      · rintro (⟨hd, rfl⟩ | ⟨hd, a, ha, hc⟩)
        · exact ⟨b, .inl ⟨hd, rfl⟩, hb⟩
        · exact ⟨a, .inr ⟨hd, ha⟩, hc⟩
      · rintro ⟨a, ⟨hd, rfl⟩ | ⟨hd, ha⟩, hc⟩
        · exact .inl ⟨hd, Option.some.inj (hb.symm.trans hc)⟩
        · exact .inr ⟨hd, a, ha, hc⟩

theorem flatMap_iff {f : α → List β} {P : β → Prop} {c : β} : FirstWith P (l.flatMap f) c ↔
    ∃ a, FirstWith (fun a => ∃ b ∈ f a, P b) l a ∧ FirstWith P (f a) c := by
  induction l with
  | nil => exact iff_of_false not_nil fun ⟨_, h, _⟩ => not_nil h
  | cons b l ih =>
    rw [List.flatMap_cons, append_iff, ih]
    simp only [cons_iff]
    constructor
    · rintro (hc | ⟨hnone, a, ha, hc⟩)
      · exact ⟨b, .inl ⟨⟨c, hc.mem, hc.prop⟩, rfl⟩, hc⟩
      · exact ⟨a, .inr ⟨fun ⟨d, hd, hP⟩ => hnone d hd hP, ha⟩, hc⟩
    · rintro ⟨a, ⟨-, rfl⟩ | ⟨hnone, ha⟩, hc⟩
      · exact .inl hc
      · exact .inr ⟨fun d hd hP => hnone ⟨d, hd, hP⟩, a, ha, hc⟩

end FirstWith

/-! ## Sorted selections -/

section sort
variable {r : α → α → Prop} [DecidableRel r] [IsTrans α r] {p : α → Bool}

theorem filter_orderedInsert {a : α} {l : List α} (hl : l.Pairwise r) :
    (l.orderedInsert r a).filter p = if p a then (l.filter p).orderedInsert r a else l.filter p := by
  induction l with
  | nil =>
    rw [List.orderedInsert_nil, List.filter_nil, List.orderedInsert_nil, List.filter_cons, List.filter_nil]
  | cons b l ih =>
    obtain ⟨hb, hl⟩ := List.pairwise_cons.mp hl
    by_cases hab : r a b
    · rw [List.orderedInsert_cons_of_le r l hab, List.filter_cons]
      split
      · -- `a` is before everything that is left
        have hall : ∀ c ∈ (b :: l).filter p, r a c := by
          intro c hc
          rcases List.mem_cons.mp (List.mem_of_mem_filter hc) with rfl | hc
          · exact hab
          · exact IsTrans.trans a b c hab (hb c hc)
        cases hfilter : (b :: l).filter p with
        | nil => rfl
        | cons c cs =>
          rw [List.orderedInsert_cons_of_le]
          exact hall c (by rw [hfilter]; exact List.mem_cons_self)
      · rfl
    · rw [List.orderedInsert_of_not_le r l hab, List.filter_cons, ih hl, List.filter_cons]
      split
      · split
        · rw [List.orderedInsert_of_not_le r _ hab]
        · rfl
      · rfl

/-- A selection of a sorted list is the selection, sorted. -/
theorem filter_insertionSort [Std.Total r] (l : List α) :
    (l.insertionSort r).filter p = (l.filter p).insertionSort r := by
  induction l with
  | nil => rfl
  | cons a l ih =>
    rw [List.insertionSort_cons, filter_orderedInsert (List.pairwise_insertionSort r l), ih, List.filter_cons]
    split
    · rw [List.insertionSort_cons]
    · rfl

end sort

end Obliguard

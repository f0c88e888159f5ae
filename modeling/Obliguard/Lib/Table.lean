import Mathlib.Data.List.Nodup
import Mathlib.Tactic.Common

/-!
# Tables with a serial key, and ordered sets

A `Table` is a list of rows with distinct positive keys below a sequence that only grows, the way a
database hands out serial ids. The four statements are `find`, `update`, `insert` and
`delete`; each has a membership lemma, and `filter_update` and `filter_insert` are the frame lemmas:
a selection that neither the old nor the new form of a written row meets is unchanged.

`distinct` is an insertion-ordered set of the elements of a list, `collect` a map of lists filled row by row.
-/

namespace Obliguard

variable {α : Type} {key : α → Nat}

/-- Rows with distinct serial keys. -/
structure Table (key : α → Nat) where
  rows : List α
  seq : Nat
  nodup : (rows.map key).Nodup
  seq_pos : 0 < seq
  bounds : ∀ r ∈ rows, 0 < key r ∧ key r < seq

namespace Table

/-- No rows. -/
def empty : Table key := ⟨[], 1, List.nodup_nil, Nat.one_pos, by simp⟩

theorem three_pos : 0 < 3 := Nat.zero_lt_succ 2

/-- The row of a key. -/
def find (t : Table key) (k : Nat) : Option α := t.rows.find? fun r => key r = k

/-- `UPDATE ... SET f WHERE p`. -/
def update (t : Table key) (p : α → Bool) (f : α → α) (hf : ∀ r, key (f r) = key r) : Table key where
  rows := t.rows.map fun r => if p r then f r else r
  seq := t.seq
  nodup := by
    have hkey : (key ∘ fun r => if p r then f r else r) = key := by
      funext r
      simp only [Function.comp_apply]
      split
      · exact hf r
      · rfl
    rw [List.map_map, hkey]
    exact t.nodup
  seq_pos := t.seq_pos
  bounds := by
    intro r hr
    obtain ⟨a, ha, rfl⟩ := List.mem_map.mp hr
    have := t.bounds a ha
    split
    · rwa [hf]
    · exact this

/-- `INSERT`, the key being the next one of the sequence. -/
def insert (t : Table key) (mk : Nat → α) (hmk : ∀ k, key (mk k) = k) : Table key where
  rows := t.rows ++ [mk t.seq]
  seq := t.seq + 1
  nodup := by
    rw [List.map_append, List.nodup_append]
    refine ⟨t.nodup, by simp, ?_⟩
    rintro a ha b hb rfl
    obtain ⟨r, hr, rfl⟩ := List.mem_map.mp ha
    simp only [List.map_cons, List.map_nil, List.mem_singleton, hmk] at hb
    exact absurd (t.bounds r hr) (by omega)
  seq_pos := by omega
  bounds := by
    intro r hr
    rcases List.mem_append.mp hr with hr | hr
    · have := t.bounds r hr
      omega
    · have := t.seq_pos
      rw [List.mem_singleton] at hr
      rw [hr, hmk]
      omega

/-- `DELETE ... WHERE p`. -/
def delete (t : Table key) (p : α → Bool) : Table key where
  rows := t.rows.filter fun r => !p r
  seq := t.seq
  nodup := t.nodup.sublist (List.filter_sublist.map key)
  seq_pos := t.seq_pos
  bounds := fun r hr => t.bounds r (List.mem_of_mem_filter hr)

theorem eq_of_key {t : Table key} {a b : α} (ha : a ∈ t.rows) (hb : b ∈ t.rows)
    (h : key a = key b) : a = b := List.inj_on_of_nodup_map t.nodup ha hb h

theorem find_eq_some {t : Table key} {k : Nat} {r : α} :
    t.find k = some r ↔ r ∈ t.rows ∧ key r = k := by
  rw [find]
  constructor
  · intro h
    exact ⟨List.mem_of_find?_eq_some h, by simpa using List.find?_some h⟩
  · rintro ⟨hr, rfl⟩
    cases h : t.rows.find? fun a => key a = key r with
    | none =>
      rw [List.find?_eq_none] at h
      exact absurd (h r hr) (by simp)
    | some a =>
      have hk : key a = key r := by simpa using List.find?_some h
      rw [eq_of_key (List.mem_of_find?_eq_some h) hr hk]

theorem find_update {t : Table key} {p : α → Bool} {f : α → α} {hf : ∀ r, key (f r) = key r}
    {k : Nat} : (t.update p f hf).find k = (t.find k).map fun r => if p r then f r else r := by
  have hkey : ((fun r => decide (key r = k)) ∘ fun r => if p r then f r else r) =
      fun r => decide (key r = k) := by
    funext r
    simp only [Function.comp_apply]
    split
    · rw [hf]
    · rfl
  rw [find, update, List.find?_map, hkey, find]

theorem key_mem_map_filter {t : Table key} {p : α → Bool} {r : α} (hr : r ∈ t.rows) :
    key r ∈ (t.rows.filter p).map key ↔ p r = true := by
  constructor
  · intro h
    obtain ⟨a, ha, hk⟩ := List.mem_map.mp h
    obtain ⟨ha, hp⟩ := List.mem_filter.mp ha
    rwa [eq_of_key ha hr hk] at hp
  · intro h
    exact List.mem_map.mpr ⟨r, List.mem_filter.mpr ⟨hr, h⟩, rfl⟩

theorem mem_update {t : Table key} {p : α → Bool} {f : α → α} {hf : ∀ r, key (f r) = key r} {r : α} :
    r ∈ (t.update p f hf).rows ↔ ∃ a ∈ t.rows, (if p a then f a else a) = r := by
  rw [update, List.mem_map]

theorem mem_insert {t : Table key} {mk : Nat → α} {hmk : ∀ k, key (mk k) = k} {r : α} :
    r ∈ (t.insert mk hmk).rows ↔ r ∈ t.rows ∨ r = mk t.seq := by
  rw [insert, List.mem_append, List.mem_singleton]

theorem mem_delete {t : Table key} {p : α → Bool} {r : α} :
    r ∈ (t.delete p).rows ↔ r ∈ t.rows ∧ p r = false := by
  rw [delete, List.mem_filter, Bool.not_eq_true']

theorem find_insert {t : Table key} {mk : Nat → α} {hmk : ∀ k, key (mk k) = k} {k : Nat} :
    (t.insert mk hmk).find k = if k = t.seq then some (mk t.seq) else t.find k := by
  have hseq : t.find t.seq = none := by
    rw [find, List.find?_eq_none]
    intro r hr
    have := t.bounds r hr
    simp only [decide_eq_true_eq]
    omega
  rw [find, insert, List.find?_append, List.find?_cons, List.find?_nil, hmk]
  by_cases hk : k = t.seq
  · rw [if_pos hk, hk, ← find, hseq, decide_eq_true rfl]
    rfl
  · rw [if_neg hk, decide_eq_false (Ne.symm hk), ← find]
    exact Option.or_none

theorem find_delete {t : Table key} {p : α → Bool} {k : Nat} :
    (t.delete p).find k = (t.find k).filter fun r => !p r := by
  refine Option.ext fun r => ?_
  rw [Option.filter_eq_some_iff, find_eq_some, find_eq_some, mem_delete, Bool.not_eq_true']
  exact and_right_comm

/-- A selection that no updated row meets, before or after, is unchanged. -/
theorem filter_update {t : Table key} {p : α → Bool} {f : α → α} {hf : ∀ r, key (f r) = key r}
    {q : α → Bool} (h : ∀ r ∈ t.rows, p r = true → q r = false ∧ q (f r) = false) :
    (t.update p f hf).rows.filter q = t.rows.filter q := by
  rw [update]
  dsimp only
  revert h
  induction t.rows with
  | nil => exact fun _ => rfl
  | cons r rs ih =>
    intro h
    have htl := ih fun a ha => h a (List.mem_cons_of_mem r ha)
    rw [List.map_cons]
    by_cases hp : p r = true
    · obtain ⟨h1, h2⟩ := h r (by simp) hp
      rw [if_pos hp, List.filter_cons_of_neg (by simp [h2]), List.filter_cons_of_neg (by simp [h1]),
        htl]
    · rw [if_neg hp, List.filter_cons, List.filter_cons, htl]

theorem filter_insert {t : Table key} {mk : Nat → α} (hmk : ∀ k, key (mk k) = k) {q : α → Bool}
    (h : q (mk t.seq) = false) : (t.insert mk hmk).rows.filter q = t.rows.filter q := by
  rw [insert]
  simp [List.filter_append, h]

theorem filter_delete {t : Table key} {p q : α → Bool} (h : ∀ r ∈ t.rows, p r = true → q r = false) :
    (t.delete p).rows.filter q = t.rows.filter q := by
  rw [delete]
  simp only [List.filter_filter]
  refine List.filter_congr fun r hr => ?_
  cases hp : p r with
  | false => simp
  | true => simp [h r hr hp]

theorem update_update {t : Table key} {p q : α → Bool} {f : α → α} {hf : ∀ r, key (f r) = key r}
    (h : ∀ r, p r = true → q (f r) = false) :
    (t.update p f hf).update q f hf = t.update (fun r => p r || q r) f hf := by
  simp only [update, List.map_map, mk.injEq, and_true]
  apply List.map_congr_left
  intro r _
  simp only [Function.comp_apply]
  by_cases hp : p r = true
  · rw [if_pos hp, h r hp]
    simp [hp]
  · rw [if_neg hp]
    simp [hp]

theorem update_congr {t : Table key} {p q : α → Bool} {f g : α → α} {hf : ∀ r, key (f r) = key r}
    {hg : ∀ r, key (g r) = key r}
    (h : ∀ r ∈ t.rows, (if p r then f r else r) = if q r then g r else r) :
    t.update p f hf = t.update q g hg := by
  simp only [update, mk.injEq, and_true]
  exact List.map_congr_left h

theorem update_false (t : Table key) (f : α → α) (hf : ∀ r, key (f r) = key r) :
    t.update (fun _ => false) f hf = t := by
  simp [update]

end Table

/-! ## Loops over slices -/

/-- The slices of length `n` that `for (i = 0; i < l.length; i += n)` goes through. -/
def slices (n : Nat) (l : List α) : List (List α) :=
  (List.range ((l.length + n - 1) / n)).map fun i => (l.drop (i * n)).take n

theorem mem_slices {n : Nat} (hn : 0 < n) {l : List α} {a : α} :
    (∃ c ∈ slices n l, a ∈ c) ↔ a ∈ l := by
  constructor
  · rintro ⟨c, hc, ha⟩
    obtain ⟨i, -, rfl⟩ := List.mem_map.mp hc
    exact List.mem_of_mem_drop (List.mem_of_mem_take ha)
  · intro ha
    obtain ⟨j, hj, rfl⟩ := List.mem_iff_getElem.mp ha
    refine ⟨(l.drop (j / n * n)).take n, List.mem_map.mpr ⟨j / n, ?_, rfl⟩, ?_⟩
    · rw [List.mem_range, Nat.div_lt_iff_lt_mul hn]
      have hdiv := Nat.div_add_mod (l.length + n - 1) n
      have hmod := Nat.mod_lt (l.length + n - 1) hn
      rw [Nat.mul_comm] at hdiv
      omega
    · have hdm := Nat.div_add_mod j n
      have hlt := Nat.mod_lt j hn
      rw [Nat.mul_comm] at hdm
      rw [List.mem_iff_getElem]
      refine ⟨j % n, by simp only [List.length_take, List.length_drop]; omega, ?_⟩
      rw [List.getElem_take, List.getElem_drop]
      congr 1

theorem flatten_slices {n : Nat} (hn : 0 < n) (l : List α) : (slices n l).flatten = l := by
  have htake : ∀ m, ((List.range m).map fun i => (l.drop (i * n)).take n).flatten = l.take (m * n) := by
    intro m
    induction m with
    | zero => simp
    | succ m ih =>
      rw [List.range_succ, List.map_append, List.flatten_append, ih, List.map_singleton,
        List.flatten_singleton, Nat.succ_mul, List.take_add]
  rw [slices, htake, List.take_of_length_le]
  have hdiv := Nat.div_add_mod (l.length + n - 1) n
  have hmod := Nat.mod_lt (l.length + n - 1) hn
  rw [Nat.mul_comm] at hdiv
  omega

theorem ne_nil_of_mem_slices {n : Nat} (hn : 0 < n) {l c : List α} (hc : c ∈ slices n l) : c ≠ [] := by
  obtain ⟨i, hi, rfl⟩ := List.mem_map.mp hc
  rw [List.mem_range, Nat.lt_div_iff_mul_lt hn] at hi
  have hmul : n * i = i * n := Nat.mul_comm n i
  rw [← List.length_pos_iff, List.length_take, List.length_drop]
  omega

/-! ## Maps of lists -/

section collect
variable {β κ : Type} [DecidableEq κ]

/-- A `Map` of lists, filled row by row. -/
def collect (key : α → κ) (value : α → β) (rows : List α) : κ → Option (List β) :=
  rows.foldl (fun m r k => if k = key r then some ((m k).getD [] ++ [value r]) else m k) fun _ => none

/-- The values of a key. -/
def valuesOf (key : α → κ) (value : α → β) (rows : List α) (k : κ) : List β :=
  (rows.filter fun r => key r = k).map value

theorem mem_valuesOf {key : α → κ} {value : α → β} {rows : List α} {k : κ} {b : β} :
    b ∈ valuesOf key value rows k ↔ ∃ r ∈ rows, key r = k ∧ value r = b := by
  rw [valuesOf, List.mem_map]
  simp only [List.mem_filter, decide_eq_true_eq, and_assoc]

theorem foldl_collect (key : α → κ) (value : α → β) (rows : List α) (m : κ → Option (List β)) (k : κ) :
    rows.foldl (fun m r k => if k = key r then some ((m k).getD [] ++ [value r]) else m k) m k =
      if valuesOf key value rows k = [] then m k else some ((m k).getD [] ++ valuesOf key value rows k) := by
  induction rows generalizing m with
  | nil => rfl
  | cons r rows ih =>
    rw [List.foldl_cons, ih]
    by_cases hr : key r = k
    · have hcons : valuesOf key value (r :: rows) k = value r :: valuesOf key value rows k := by
        rw [valuesOf, List.filter_cons, decide_eq_true hr, if_pos rfl, List.map_cons, valuesOf]
      rw [if_pos hr.symm, hcons, if_neg (List.cons_ne_nil _ _), Option.getD_some, List.append_assoc,
        List.singleton_append]
      split
      · rename_i hnil
        rw [hnil]
      · rfl
    · have hcons : valuesOf key value (r :: rows) k = valuesOf key value rows k := by
        rw [valuesOf, List.filter_cons, decide_eq_false hr, if_neg Bool.false_ne_true, valuesOf]
      rw [if_neg (Ne.symm hr), hcons]

theorem collect_eq (key : α → κ) (value : α → β) (rows : List α) (k : κ) : collect key value rows k =
    if valuesOf key value rows k = [] then none else some (valuesOf key value rows k) := by
  rw [collect, foldl_collect]
  rfl

theorem getD_collect (key : α → κ) (value : α → β) (rows : List α) (k : κ) :
    (collect key value rows k).getD [] = valuesOf key value rows k := by
  rw [collect_eq]
  split
  · rename_i hnil
    rw [hnil]
    rfl
  · rfl

end collect

/-! ## Ordered sets -/

theorem any_or_any (l : List α) (p q : α → Bool) :
    (l.any p || l.any q) = l.any fun a => p a || q a := by
  rw [Bool.eq_iff_iff]
  simp only [Bool.or_eq_true, List.any_eq_true]
  constructor
  · rintro (⟨a, ha, h⟩ | ⟨a, ha, h⟩)
    · exact ⟨a, ha, .inl h⟩
    · exact ⟨a, ha, .inr h⟩
  · rintro ⟨a, ha, h | h⟩
    · exact .inl ⟨a, ha, h⟩
    · exact .inr ⟨a, ha, h⟩

/-- The elements of a list without repetition, in the order of their first occurrence. -/
def distinct [DecidableEq α] (l : List α) : List α :=
  l.foldl (fun out a => if a ∈ out then out else out ++ [a]) []

theorem mem_foldl_distinct [DecidableEq α] (l out : List α) (a : α) :
    a ∈ l.foldl (fun out a => if a ∈ out then out else out ++ [a]) out ↔ a ∈ out ∨ a ∈ l := by
  induction l generalizing out with
  | nil => simp
  | cons b l ih =>
    rw [List.foldl_cons, ih, List.mem_cons]
    split
    · rename_i hb
      constructor
      · rintro (h | h)
        · exact Or.inl h
        · exact Or.inr (Or.inr h)
      · rintro (h | rfl | h)
        · exact Or.inl h
        · exact Or.inl hb
        · exact Or.inr h
    · rw [List.mem_append, List.mem_singleton, or_assoc]

@[simp] theorem mem_distinct [DecidableEq α] {l : List α} {a : α} : a ∈ distinct l ↔ a ∈ l := by
  simp [distinct, mem_foldl_distinct]

theorem nodup_distinct [DecidableEq α] (l : List α) : (distinct l).Nodup := by
  have hout : ∀ out : List α, out.Nodup →
      (l.foldl (fun out a => if a ∈ out then out else out ++ [a]) out).Nodup := by
    induction l with
    | nil => exact fun _ h => h
    | cons b l ih =>
      intro out h
      rw [List.foldl_cons]
      apply ih
      split
      · exact h
      · rename_i hb
        exact List.nodup_append.mpr ⟨h, List.nodup_singleton b, fun a ha a' ha' heq =>
          hb ((List.mem_singleton.mp ha' ▸ heq) ▸ ha)⟩
  exact hout [] .nil

theorem distinct_map {α β : Type} [DecidableEq α] [DecidableEq β] {f : α → β} {l : List α}
    (hf : ∀ a ∈ l, ∀ b ∈ l, f a = f b → a = b) : distinct (l.map f) = (distinct l).map f := by
  have hfold : ∀ l' out : List α, (∀ a ∈ l', a ∈ l) → (∀ a ∈ out, a ∈ l) →
      (l'.map f).foldl (fun out b => if b ∈ out then out else out ++ [b]) (out.map f) =
        (l'.foldl (fun out a => if a ∈ out then out else out ++ [a]) out).map f := by
    intro l'
    induction l' with
    | nil => exact fun _ _ _ => rfl
    | cons a l' ih =>
      intro out hl' hout
      obtain ⟨ha, hl'⟩ := List.forall_mem_cons.mp hl'
      have hmem : f a ∈ out.map f ↔ a ∈ out := by
        constructor
        · intro h
          obtain ⟨b, hb, heq⟩ := List.mem_map.mp h
          rwa [hf b (hout b hb) a ha heq] at hb
        · exact List.mem_map_of_mem
      rw [List.map_cons, List.foldl_cons, List.foldl_cons, if_congr hmem rfl rfl]
      split
      · exact ih out hl' hout
      · rw [← List.map_singleton, ← List.map_append]
        refine ih _ hl' fun c hc => ?_
        rcases List.mem_append.mp hc with hc | hc
        · exact hout c hc
        · rw [List.mem_singleton.mp hc]
          exact ha
  exact hfold l [] (fun _ ha => ha) fun _ ha => absurd ha List.not_mem_nil

end Obliguard

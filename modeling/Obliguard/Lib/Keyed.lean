import Mathlib.Data.List.Nodup
import Mathlib.Data.List.Perm.Subperm
import Mathlib.Tactic.Common

/-!
# Rows with distinct keys

A `Keyed` list holds at most one row for each key, as under a unique constraint. Seen through `find`
it is a partial function of the key: `find_update` and `find_upsert` say what the two statements do
to it, row by row, and `length_le_filter` bounds a selection from below by distinct keys.

A `Registry` keeps the state of each of a growing number of processes, by number.
-/

namespace Obliguard

variable {α κ : Type} {key : α → κ}

/-- Rows with distinct keys. -/
structure Keyed (key : α → κ) where
  rows : List α
  nodup : (rows.map key).Nodup

namespace Keyed

def empty : Keyed key := ⟨[], List.nodup_nil⟩

/-- `UPDATE ... SET f WHERE p`. -/
def update (t : Keyed key) (p : α → Bool) (f : α → α) (hf : ∀ r, key (f r) = key r) : Keyed key where
  rows := t.rows.map fun r => if p r then f r else r
  nodup := by
    have hkey : (key ∘ fun r => if p r then f r else r) = key := by
      funext r
      simp only [Function.comp_apply]
      split
      · exact hf r
      · rfl
    rw [List.map_map, hkey]
    exact t.nodup

/-- `DELETE ... WHERE p`. -/
def delete (t : Keyed key) (p : α → Bool) : Keyed key where
  rows := t.rows.filter fun r => !p r
  nodup := t.nodup.sublist (List.filter_sublist.map key)

theorem mem_delete {t : Keyed key} {p : α → Bool} {r : α} :
    r ∈ (t.delete p).rows ↔ r ∈ t.rows ∧ p r = false := by
  rw [delete, List.mem_filter, Bool.not_eq_true']

section find
variable [DecidableEq κ]

/-- `INSERT` of rows, which fails where a key is taken. -/
def insertAll (t : Keyed key) (new : List α) : Option (Keyed key) :=
  if h : ((t.rows ++ new).map key).Nodup then some ⟨t.rows ++ new, h⟩ else none

theorem mem_insertAll {t t' : Keyed key} {new : List α} (h : t.insertAll new = some t') {r : α} :
    r ∈ t'.rows ↔ r ∈ t.rows ∨ r ∈ new := by
  rw [insertAll] at h
  split at h
  · rw [← Option.some.inj h, List.mem_append]
  · contradiction

/-- The row of a key. -/
def find (t : Keyed key) (k : κ) : Option α := t.rows.find? fun r => key r = k

theorem find_eq_some {t : Keyed key} {k : κ} {r : α} :
    t.find k = some r ↔ r ∈ t.rows ∧ key r = k := by
  constructor
  · intro h
    exact ⟨List.mem_of_find?_eq_some h, by simpa using List.find?_some h⟩
  · rintro ⟨hr, rfl⟩
    cases h : t.find (key r) with
    | none =>
      rw [find, List.find?_eq_none] at h
      exact absurd (h r hr) (by simp)
    | some a =>
      have hk : key a = key r := by simpa using List.find?_some h
      rw [List.inj_on_of_nodup_map t.nodup (List.mem_of_find?_eq_some h) hr hk]

theorem find_eq_none {t : Keyed key} {k : κ} : t.find k = none ↔ ∀ r ∈ t.rows, key r ≠ k := by
  rw [find, List.find?_eq_none]
  simp

/-- `INSERT` of a row whose key is not there. -/
def insert (t : Keyed key) (r : α) (h : t.find (key r) = none) : Keyed key where
  rows := t.rows ++ [r]
  nodup := by
    rw [List.map_append, List.nodup_append]
    refine ⟨t.nodup, List.nodup_singleton _, ?_⟩
    rintro a ha b hb rfl
    obtain ⟨r', hr', rfl⟩ := List.mem_map.mp ha
    exact find_eq_none.mp h r' hr' (List.mem_singleton.mp hb)

/-- `INSERT r ON CONFLICT DO UPDATE SET f WHERE p`. -/
def upsert (t : Keyed key) (r : α) (p : α → Bool) (f : α → α) (hf : ∀ r, key (f r) = key r) :
    Keyed key :=
  if h : t.find (key r) = none then t.insert r h
  else t.update (fun r' => decide (key r' = key r) && p r') f hf

theorem find_update (t : Keyed key) (p : α → Bool) (f : α → α) (hf : ∀ r, key (f r) = key r) (k : κ) :
    (t.update p f hf).find k = (t.find k).map fun r => if p r then f r else r := by
  cases h : t.find k with
  | none =>
    rw [find_eq_none] at h
    rw [Option.map_none, find_eq_none]
    intro r' hr'
    obtain ⟨r, hr, rfl⟩ := List.mem_map.mp hr'
    split
    · rw [hf]
      exact h r hr
    · exact h r hr
  | some r =>
    rw [find_eq_some] at h
    rw [Option.map_some, find_eq_some]
    refine ⟨List.mem_map_of_mem h.1, ?_⟩
    split
    · rw [hf]
      exact h.2
    · exact h.2

theorem find_insert (t : Keyed key) (r : α) (h : t.find (key r) = none) (k : κ) :
    (t.insert r h).find k = if key r = k then some r else t.find k := by
  rw [find, insert, List.find?_append, ← find]
  split
  · rename_i hk
    rw [← hk, h, Option.none_or]
    simp
  · rename_i hk
    simp [hk]

/-- An upsert, seen at a key. -/
theorem find_upsert (t : Keyed key) (r : α) (p : α → Bool) (f : α → α) (hf : ∀ r, key (f r) = key r)
    (k : κ) : (t.upsert r p f hf).find k =
      if key r = k then some (match t.find k with
        | none => r
        | some r' => if p r' then f r' else r')
      else t.find k := by
  unfold upsert
  split
  · rename_i h
    rw [find_insert]
    split
    · rename_i hk
      rw [← hk, h]
    · rfl
  · rename_i h
    rw [find_update]
    cases hfind : t.find k with
    | none =>
      split
      · rename_i hk
        rw [hk] at h
        exact absurd hfind h
      · rfl
    | some r' =>
      rw [find_eq_some] at hfind
      rw [Option.map_some, hfind.2]
      by_cases hk : key r = k
      · simp [hk]
      · simp [hk, Ne.symm hk]

/-- Distinct keys whose rows are selected are at most as many as the selection. -/
theorem length_le_filter {t : Keyed key} {p : α → Bool} {ks : List κ} (hks : ks.Nodup)
    (h : ∀ k ∈ ks, ∃ r, t.find k = some r ∧ p r = true) : ks.length ≤ (t.rows.filter p).length := by
  have hsub : ks ⊆ (t.rows.filter p).map key := by
    intro k hk
    obtain ⟨r, hr, hp⟩ := h k hk
    rw [find_eq_some] at hr
    exact List.mem_map.mpr ⟨r, List.mem_filter.mpr ⟨hr.1, hp⟩, hr.2⟩
  have hle := (hks.subperm hsub).length_le
  rwa [List.length_map] at hle

end find

end Keyed

/-! ## Processes -/

/-- The processes under way, by number. -/
structure Registry (β : Type) where
  entries : List (Nat × β)

namespace Registry

variable {β : Type} {p : Registry β} {t u : Nat} {b : β}

def empty : Registry β := ⟨[]⟩

def get (p : Registry β) (t : Nat) : Option β := (p.entries.find? (·.1 == t)).map (·.2)

def erase (p : Registry β) (t : Nat) : Registry β := ⟨p.entries.filter (·.1 != t)⟩

def put (p : Registry β) (t : Nat) (b : β) : Registry β := ⟨(t, b) :: (p.erase t).entries⟩

@[simp] theorem get_empty : (empty : Registry β).get t = none := rfl

@[simp] theorem get_erase_self : (p.erase t).get t = none := by
  rw [get, Option.map_eq_none_iff, List.find?_eq_none]
  intro e he
  simpa using (List.mem_filter.mp he).2

theorem get_erase_of_ne (h : u ≠ t) : (p.erase t).get u = p.get u := by
  have hsame : (fun e : Nat × β => decide ((e.1 != t) = true ∧ (e.1 == u) = true)) =
      fun e => e.1 == u := by
    funext e
    by_cases he : e.1 = u
    · simp [he, h]
    · simp [he]
  rw [get, erase, List.find?_filter, hsame]
  rfl

@[simp] theorem get_put_self : (p.put t b).get t = some b := by simp [get, put]

theorem get_put_of_ne (h : u ≠ t) : (p.put t b).get u = p.get u := by
  have hskip : (p.put t b).get u = (p.erase t).get u := by
    rw [get, put, List.find?_cons_of_neg]
    · rfl
    · simpa using Ne.symm h
  rw [hskip, get_erase_of_ne h]

theorem get_put_eq_some {c : β} (h : (p.put t b).get u = some c) :
    u = t ∧ b = c ∨ u ≠ t ∧ p.get u = some c := by
  by_cases hut : u = t
  · rw [hut, get_put_self] at h
    exact .inl ⟨hut, Option.some.inj h⟩
  · rw [get_put_of_ne hut] at h
    exact .inr ⟨hut, h⟩

theorem get_erase_eq_some {c : β} (h : (p.erase t).get u = some c) : u ≠ t ∧ p.get u = some c := by
  by_cases hut : u = t
  · rw [hut, get_erase_self] at h
    contradiction
  · rw [get_erase_of_ne hut] at h
    exact ⟨hut, h⟩

/-- Whether the state of some process meets a condition. -/
def any (p : Registry β) (q : β → Bool) : Bool := p.entries.any fun e => (p.get e.1).any q

theorem any_eq_true {q : β → Bool} : p.any q = true ↔ ∃ t b, p.get t = some b ∧ q b = true := by
  rw [any, List.any_eq_true]
  constructor
  · rintro ⟨e, -, hq⟩
    rw [Option.any_eq_true] at hq
    obtain ⟨b, hb, hq⟩ := hq
    exact ⟨e.1, b, hb, hq⟩
  · rintro ⟨t, b, hb, hq⟩
    have hget := hb
    rw [get, Option.map_eq_some_iff] at hb
    obtain ⟨e, he, -⟩ := hb
    have ht : e.1 = t := by simpa using List.find?_some he
    refine ⟨e, List.mem_of_find?_eq_some he, ?_⟩
    rw [ht, hget, Option.any_some]
    exact hq

/-- At most one process meets a condition: `o` is the one, `none` if there is none. -/
def Sole (p : Registry β) (q : β → Bool) (o : Option Nat) : Prop :=
  ∀ t, o = some t ↔ ∃ b, p.get t = some b ∧ q b = true

section sole
variable {q : β → Bool} {o : Option Nat} {b' : β}

theorem Sole.empty : (empty : Registry β).Sole q none := by
  intro t
  simp

theorem Sole.eq_some (h : p.Sole q o) (hb : p.get t = some b) (hq : q b = true) : o = some t :=
  (h t).mpr ⟨b, hb, hq⟩

theorem Sole.any_eq (h : p.Sole q o) : p.any q = o.isSome := by
  rw [Bool.eq_iff_iff, any_eq_true, Option.isSome_iff_exists]
  exact exists_congr fun t => (h t).symm

theorem Sole.put_same (h : p.Sole q o) (hb : ∀ c, p.get t = some c → q c = q b)
    (hnew : p.get t = none → q b = false) : (p.put t b).Sole q o := by
  intro u
  rw [h u]
  by_cases hu : u = t
  · subst hu
    rw [get_put_self]
    cases hc : p.get u with
    | none => simp [hnew hc]
    | some c => simp [hb c hc]
  · rw [get_put_of_ne hu]

theorem Sole.enter (h : p.Sole q none) (hq : q b = true) : (p.put t b).Sole q (some t) := by
  intro u
  by_cases hu : u = t
  · subst hu
    simp [hq]
  · rw [get_put_of_ne hu, ← h u, Option.some.injEq]
    simp [Ne.symm hu]

theorem Sole.leave (h : p.Sole q (some t)) (hq : q b = false) : (p.put t b).Sole q none := by
  intro u
  by_cases hu : u = t
  · subst hu
    simp [hq]
  · rw [get_put_of_ne hu, ← h u, Option.some.injEq]
    simp [Ne.symm hu]

theorem Sole.erase_of_not (h : p.Sole q o) (hq : ∀ b, p.get t = some b → q b = false) :
    (p.erase t).Sole q o := by
  intro u
  rw [h u]
  by_cases hu : u = t
  · subst hu
    rw [get_erase_self]
    constructor
    · rintro ⟨b, hb, hqb⟩
      rw [hq b hb] at hqb
      contradiction
    · rintro ⟨b, hb, -⟩
      contradiction
  · rw [get_erase_of_ne hu]

theorem Sole.erase_self (h : p.Sole q (some t)) : (p.erase t).Sole q none := by
  intro u
  by_cases hu : u = t
  · subst hu
    simp
  · rw [get_erase_of_ne hu, ← h u, Option.some.injEq]
    simp [Ne.symm hu]

end sole

end Registry

end Obliguard

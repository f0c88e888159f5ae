import Mathlib.Data.List.Basic
import Mathlib.Tactic.Common

/-!
# Tables under read committed isolation

A row has a committed version, which every transaction reads, and, while a transaction has it locked,
the version that transaction wrote. A statement is executed by a transaction (`some t`) or commits at
once (`none`). It reads the versions its executor sees; it waits for rows that another transaction
has locked, and for keys of a partial unique index that another transaction holds; a committed
duplicate is a violation.

`Unique` is the invariant behind the index: `unique_writes`, `unique_commit` and `unique_rollback`
say that every statement keeps it.
-/

namespace Obliguard.ReadCommitted

variable {ρ κ : Type}

/-- The versions of a row. -/
structure Cell (ρ : Type) where
  committed : Option ρ
  /-- The transaction that has the row locked, with the version it wrote. -/
  working : Option (Nat × ρ)

namespace Cell

/-- No row. -/
def empty : Cell ρ := ⟨none, none⟩

/-- The executor has the row locked. -/
def owned (c : Cell ρ) (tx : Option Nat) : Bool :=
  match c.working with
  | some (t, _) => tx == some t
  | none => false

def lockedByOther (c : Cell ρ) (tx : Option Nat) : Bool := c.working.isSome && !c.owned tx

/-- The version that the executor sees. -/
def view (c : Cell ρ) (tx : Option Nat) : Option ρ :=
  match c.working with
  | some (t, r) => if tx = some t then some r else c.committed
  | none => c.committed

/-- A new version. -/
def write (c : Cell ρ) (tx : Option Nat) (r : ρ) : Cell ρ :=
  match tx with
  | some t => ⟨c.committed, some (t, r)⟩
  | none => ⟨some r, c.working⟩

/-- The versions that may stand beside one of the executor. -/
def versions (c : Cell ρ) (tx : Option Nat) : List ρ :=
  if c.owned tx then (c.view tx).toList
  else c.committed.toList ++ (c.working.map (·.2)).toList

def commit (c : Cell ρ) (t : Nat) : Cell ρ :=
  match c.working with
  | some (u, r) => if u = t then ⟨some r, none⟩ else c
  | none => c

def rollback (c : Cell ρ) (t : Nat) : Cell ρ :=
  match c.working with
  | some (u, _) => if u = t then ⟨c.committed, none⟩ else c
  | none => c

end Cell

/-- Rows by id, and the next id. -/
@[ext] structure Store (ρ : Type) where
  cells : Nat → Cell ρ
  seq : Nat
  fresh : ∀ i, seq ≤ i → cells i = Cell.empty

/-- No rows. -/
def Store.empty : Store ρ := ⟨fun _ => Cell.empty, 1, fun _ _ => rfl⟩

/-- What a statement comes to. -/
inductive Outcome (α : Type)
  | blocked
  | violation
  | done (a : α)

namespace Store

/-- `SELECT id WHERE p`, by id. -/
def select (s : Store ρ) (tx : Option Nat) (p : Nat → ρ → Bool) : List Nat :=
  (List.range s.seq).filter fun i => ((s.cells i).view tx).any (p i)

/-- The rows after `SET f` on some ids. -/
def write (s : Store ρ) (tx : Option Nat) (ids : List Nat) (f : Nat → ρ → ρ) : Store ρ where
  cells i := if i ∈ ids then
      match (s.cells i).view tx with
      | some r => (s.cells i).write tx (f i r)
      | none => s.cells i
    else s.cells i
  seq := s.seq
  fresh := by
    intro i hi
    rw [s.fresh i hi]
    split
    · rfl
    · rfl

/-- The other rows that hold a key of the rows just written. -/
def clashing [DecidableEq κ] (key : ρ → Option κ) (s : Store ρ) (tx : Option Nat)
    (ids : List Nat) : List Nat :=
  (List.range s.seq).filter fun j => ids.any fun i => i != j &&
    ((s.cells i).view tx).any fun r => (key r).any fun k =>
      ((s.cells j).versions tx).any fun r' => key r' == some k

/-- The check of the unique index after a write. -/
def checked [DecidableEq κ] {α : Type} (key : ρ → Option κ) (s : Store ρ) (tx : Option Nat)
    (ids : List Nat) (a : α) : Outcome α :=
  match clashing key s tx ids with
  | [] => .done a
  | js => if js.any fun j => (s.cells j).lockedByOther tx then .blocked else .violation

/-- `UPDATE ... SET f WHERE p`, with the ids of its rows. -/
def update [DecidableEq κ] (key : ρ → Option κ) (s : Store ρ) (tx : Option Nat)
    (p : Nat → ρ → Bool) (f : Nat → ρ → ρ) : Outcome (List Nat × Store ρ) :=
  let ids := s.select tx p
  if ids.any fun i => (s.cells i).lockedByOther tx then .blocked
  else checked key (s.write tx ids f) tx ids (ids, s.write tx ids f)

/-- Committed rows, with nothing under way. -/
def ofRows (rows : List ρ) : Store ρ where
  cells i := ⟨rows[i]?, none⟩
  seq := rows.length
  fresh := by
    intro i hi
    rw [List.getElem?_eq_none hi]
    rfl

/-- The rows after an insert. -/
def append (s : Store ρ) (tx : Option Nat) (r : ρ) : Store ρ where
  cells i := if i = s.seq then Cell.empty.write tx r else s.cells i
  seq := s.seq + 1
  fresh := by
    intro i hi
    rw [if_neg (by omega), s.fresh i (by omega)]

/-- `INSERT`. -/
def insert [DecidableEq κ] (key : ρ → Option κ) (s : Store ρ) (tx : Option Nat) (r : ρ) :
    Outcome (Store ρ) :=
  checked key (s.append tx r) tx [s.seq] (s.append tx r)

/-- `DELETE ... WHERE p`, while nothing is locked. -/
def delete (s : Store ρ) (p : Nat → ρ → Bool) : Store ρ where
  cells i := if (s.cells i).committed.any (p i) then Cell.empty else s.cells i
  seq := s.seq
  fresh := by
    intro i hi
    rw [s.fresh i hi]
    split
    · rfl
    · rfl

def commit (s : Store ρ) (t : Nat) : Store ρ where
  cells i := (s.cells i).commit t
  seq := s.seq
  fresh := by
    intro i hi
    rw [s.fresh i hi]
    rfl

def rollback (s : Store ρ) (t : Nat) : Store ρ where
  cells i := (s.cells i).rollback t
  seq := s.seq
  fresh := by
    intro i hi
    rw [s.fresh i hi]
    rfl

end Store

/-! ## Cells -/

namespace Cell

variable {c : Cell ρ} {t : Nat} {r : ρ}

@[simp] theorem view_none (c : Cell ρ) : c.view none = c.committed := by
  unfold view
  split
  · simp
  · rfl

theorem view_of_working (h : c.working = some (t, r)) : c.view (some t) = some r := by
  rw [view, h]
  exact if_pos rfl

theorem view_of_not_owned {tx : Option Nat} (h : c.owned tx = false) : c.view tx = c.committed := by
  unfold view
  unfold owned at h
  split
  · rename_i u r hw
    rw [hw] at h
    rw [if_neg (by simpa using h)]
  · rfl

theorem owned_iff : c.owned (some t) = true ↔ ∃ r, c.working = some (t, r) := by
  unfold owned
  cases hw : c.working with
  | none => simp
  | some p =>
    obtain ⟨u, r⟩ := p
    constructor
    · intro h
      have htu : t = u := by simpa using h
      exact ⟨r, by rw [htu]⟩
    · rintro ⟨r', h⟩
      have hut : u = t := by simp only [Option.some.injEq, Prod.mk.injEq] at h; exact h.1
      simp [hut]

@[simp] theorem owned_none (c : Cell ρ) : c.owned none = false := by
  unfold owned
  split
  · rfl
  · rfl

theorem owned_of_not_lockedByOther {tx : Option Nat} (h : c.lockedByOther tx = false)
    (hw : c.working = some (t, r)) : tx = some t := by
  unfold lockedByOther owned at h
  rw [hw] at h
  simpa using h

@[simp] theorem committed_write_some (c : Cell ρ) (t : Nat) (r : ρ) :
    (c.write (some t) r).committed = c.committed := rfl

@[simp] theorem working_write_some (c : Cell ρ) (t : Nat) (r : ρ) :
    (c.write (some t) r).working = some (t, r) := rfl

@[simp] theorem committed_write_none (c : Cell ρ) (r : ρ) :
    (c.write none r).committed = some r := rfl

@[simp] theorem working_write_none (c : Cell ρ) (r : ρ) : (c.write none r).working = c.working := rfl

theorem view_write (h : c.lockedByOther tx = false) : (c.write tx r).view tx = some r := by
  cases tx with
  | none => simp
  | some t => exact view_of_working rfl

theorem mem_versions_committed {tx : Option Nat} (h : c.owned tx = false)
    (hc : c.committed = some r) : r ∈ c.versions tx := by
  simp [versions, h, hc]

theorem mem_versions_working {tx : Option Nat} (hw : c.working = some (t, r)) :
    r ∈ c.versions tx := by
  unfold versions
  split
  · rename_i howned
    unfold owned at howned
    rw [hw] at howned
    have htx : tx = some t := by simpa using howned
    rw [htx, view_of_working hw]
    exact List.mem_singleton_self r
  · simp [hw]

theorem committed_commit (c : Cell ρ) (t : Nat) : (c.commit t).committed =
    if c.owned (some t) then c.view (some t) else c.committed := by
  unfold commit owned view
  cases hw : c.working with
  | none => rfl
  | some p =>
    obtain ⟨u, r⟩ := p
    by_cases hu : u = t
    · simp [hu]
    · simp [hu, Ne.symm hu]

theorem working_commit (c : Cell ρ) (t : Nat) : (c.commit t).working =
    if c.owned (some t) then none else c.working := by
  unfold commit owned
  cases hw : c.working with
  | none => simp [hw]
  | some p =>
    obtain ⟨u, r⟩ := p
    by_cases hu : u = t
    · simp [hu]
    · simp [hu, Ne.symm hu, hw]

@[simp] theorem committed_rollback (c : Cell ρ) (t : Nat) :
    (c.rollback t).committed = c.committed := by
  unfold rollback
  split
  · split
    · rfl
    · rfl
  · rfl

theorem working_rollback (c : Cell ρ) (t : Nat) : (c.rollback t).working =
    if c.owned (some t) then none else c.working := by
  unfold rollback owned
  cases hw : c.working with
  | none => simp [hw]
  | some p =>
    obtain ⟨u, r⟩ := p
    by_cases hu : u = t
    · simp [hu]
    · simp [hu, Ne.symm hu, hw]

/-- A version committed now is one that `t` wrote, or one of before that `t` did not replace. -/
theorem committed_commit_eq_some (h : (c.commit t).committed = some r) :
    c.working = some (t, r) ∨ c.owned (some t) = false ∧ c.committed = some r := by
  rw [committed_commit] at h
  split at h
  · rename_i howned
    obtain ⟨v, hv⟩ := owned_iff.mp howned
    rw [view_of_working hv] at h
    exact .inl (Option.some.inj h ▸ hv)
  · rename_i howned
    exact .inr ⟨eq_false_of_ne_true howned, h⟩

theorem working_commit_eq_some {u : Nat} (h : (c.commit t).working = some (u, r)) :
    c.owned (some t) = false ∧ c.working = some (u, r) := by
  rw [working_commit] at h
  split at h
  · contradiction
  · rename_i howned
    exact ⟨eq_false_of_ne_true howned, h⟩

theorem working_rollback_eq_some {u : Nat} (h : (c.rollback t).working = some (u, r)) :
    u ≠ t ∧ c.working = some (u, r) := by
  rw [working_rollback] at h
  split at h
  · contradiction
  · rename_i howned
    refine ⟨?_, h⟩
    intro hut
    exact howned (owned_iff.mpr ⟨r, hut ▸ h⟩)

/-- A version of the row, committed or not. -/
def Version (c : Cell ρ) (r : ρ) : Prop := c.committed = some r ∨ ∃ t, c.working = some (t, r)

theorem Version.of_commit (h : (c.commit t).Version r) : c.Version r := by
  rcases h with h | ⟨u, h⟩
  · rcases committed_commit_eq_some h with h | ⟨-, h⟩
    · exact .inr ⟨t, h⟩
    · exact .inl h
  · exact .inr ⟨u, (working_commit_eq_some h).2⟩

theorem Version.of_rollback (h : (c.rollback t).Version r) : c.Version r := by
  rcases h with h | ⟨u, h⟩
  · rw [committed_rollback] at h
    exact .inl h
  · exact .inr ⟨u, (working_rollback_eq_some h).2⟩

end Cell

/-! ## Statements -/

/-- What a statement may write: rows that nobody else has locked, without a clash. -/
structure Writes (key : ρ → Option κ) (s s' : Store ρ) (tx : Option Nat) (ids : List Nat) :
    Prop where
  same : ∀ i, i ∉ ids → s'.cells i = s.cells i
  free : ∀ i ∈ ids, (s.cells i).lockedByOther tx = false
  wrote : ∀ i ∈ ids, ∃ r, s'.cells i = (s.cells i).write tx r
  clash : ∀ i ∈ ids, ∀ j, j ≠ i → ∀ r k, (s'.cells i).view tx = some r → key r = some k →
    ∀ v ∈ (s'.cells j).versions tx, key v ≠ some k

theorem mem_select {s : Store ρ} {tx : Option Nat} {p : Nat → ρ → Bool} {i : Nat} :
    i ∈ s.select tx p ↔ ∃ r, (s.cells i).view tx = some r ∧ p i r = true := by
  rw [Store.select, List.mem_filter, List.mem_range, Option.any_eq_true]
  constructor
  · exact And.right
  · intro h
    refine ⟨?_, h⟩
    by_contra hge
    obtain ⟨r, hr, -⟩ := h
    rw [s.fresh i (by omega)] at hr
    contradiction

theorem Store.lt_seq_of_committed {s : Store ρ} {i : Nat} {r : ρ}
    (hr : (s.cells i).committed = some r) : i < s.seq := by
  by_contra hge
  rw [s.fresh i (by omega)] at hr
  contradiction

theorem checked_done [DecidableEq κ] {α : Type} {key : ρ → Option κ} {s : Store ρ} {tx : Option Nat}
    {ids : List Nat} {a b : α} (h : Store.checked key s tx ids a = .done b) :
    b = a ∧ ∀ i ∈ ids, ∀ j, j ≠ i → ∀ r k, (s.cells i).view tx = some r → key r = some k →
      ∀ v ∈ (s.cells j).versions tx, key v ≠ some k := by
  unfold Store.checked at h
  split at h
  · rename_i hnone
    refine ⟨(Outcome.done.inj h).symm, ?_⟩
    intro i hi j hji r k hr hk v hv hvk
    have hj : j < s.seq := by
      by_contra hge
      rw [s.fresh j (by omega)] at hv
      simp [Cell.versions, Cell.empty, Cell.owned] at hv
    have hmem : j ∈ s.clashing key tx ids := by
      rw [Store.clashing, List.mem_filter, List.mem_range, List.any_eq_true]
      refine ⟨hj, i, hi, ?_⟩
      rw [Bool.and_eq_true, bne_iff_ne, Option.any_eq_true]
      refine ⟨Ne.symm hji, r, hr, ?_⟩
      rw [hk, Option.any_some, List.any_eq_true]
      exact ⟨v, hv, by rw [hvk]; exact beq_self_eq_true _⟩
    rw [hnone] at hmem
    contradiction
  · split at h
    · contradiction
    · contradiction

theorem checked_keyless [DecidableEq κ] {α : Type} (s : Store ρ) (tx : Option Nat) (ids : List Nat)
    (a : α) : Store.checked (fun _ => (none : Option κ)) s tx ids a = .done a := by
  have hnone : s.clashing (fun _ => (none : Option κ)) tx ids = [] := by
    simp [Store.clashing]
  rw [Store.checked, hnone]

theorem Store.write_id (s : Store ρ) (ids : List Nat) : s.write none ids (fun _ => id) = s := by
  refine Store.ext (funext fun i => ?_) rfl
  unfold Store.write
  dsimp only
  split
  · rw [Cell.view_none]
    split
    · rename_i r hr
      show Cell.mk (some r) (s.cells i).working = _
      rw [← hr]
    · rfl
  · rfl

section update
variable [DecidableEq κ] {key : ρ → Option κ} {s s' : Store ρ} {tx : Option Nat} {p : Nat → ρ → Bool}
  {f : Nat → ρ → ρ} {ids : List Nat} (h : s.update key tx p f = .done (ids, s'))
include h

/-- An update that is done has written the rows it selects; none of them was locked. -/
theorem update_eq : ids = s.select tx p ∧ s' = s.write tx ids f ∧
    (∀ i ∈ ids, (s.cells i).lockedByOther tx = false) ∧
      ∀ i ∈ ids, ∀ j, j ≠ i → ∀ r k, (s'.cells i).view tx = some r → key r = some k →
        ∀ v ∈ (s'.cells j).versions tx, key v ≠ some k := by
  unfold Store.update at h
  dsimp only at h
  split at h
  · contradiction
  · rename_i hfree
    obtain ⟨heq, hclash⟩ := checked_done h
    obtain ⟨rfl, rfl⟩ := Prod.mk.inj heq
    refine ⟨rfl, rfl, ?_, hclash⟩
    intro i hi
    rw [List.any_eq_true] at hfree
    by_contra hlocked
    exact hfree ⟨i, hi, by simpa using hlocked⟩

theorem mem_update {i : Nat} : i ∈ ids ↔ ∃ r, (s.cells i).view tx = some r ∧ p i r = true := by
  rw [(update_eq h).1]
  exact mem_select

theorem cells_update {i : Nat} {r : ρ} (hi : i ∈ ids) (hr : (s.cells i).view tx = some r) :
    s'.cells i = (s.cells i).write tx (f i r) := by
  rw [(update_eq h).2.1]
  show (if i ∈ ids then _ else _) = _
  rw [if_pos hi, hr]

theorem update_writes : Writes key s s' tx ids := by
  obtain ⟨-, hs', hfree, hclash⟩ := update_eq h
  refine ⟨?_, hfree, ?_, hclash⟩
  · intro i hi
    rw [hs']
    exact if_neg hi
  · intro i hi
    obtain ⟨r, hr, -⟩ := (mem_update h).mp hi
    exact ⟨f i r, cells_update h hi hr⟩

theorem working_update_none (htx : tx = none) (i : Nat) :
    (s'.cells i).working = (s.cells i).working := by
  subst htx
  by_cases hi : i ∈ ids
  · obtain ⟨r, hr, -⟩ := (mem_update h).mp hi
    rw [cells_update h hi hr, Cell.working_write_none]
  · rw [(update_writes h).same i hi]

theorem nodup_update : ids.Nodup := by
  rw [(update_eq h).1]
  exact List.nodup_range.filter _

theorem seq_update : s'.seq = s.seq := by
  rw [(update_eq h).2.1]
  rfl

end update

section insert
variable [DecidableEq κ] {key : ρ → Option κ} {s s' : Store ρ} {tx : Option Nat} {r : ρ}
  (h : s.insert key tx r = .done s')
include h

theorem insert_eq : s' = s.append tx r := (checked_done h).1

theorem insert_writes : Writes key s s' tx [s.seq] := by
  obtain ⟨rfl, hclash⟩ := checked_done h
  have hempty : s.cells s.seq = Cell.empty := s.fresh _ (Nat.le_refl _)
  refine ⟨?_, ?_, ?_, hclash⟩
  · intro i hi
    exact if_neg fun hseq => hi (List.mem_singleton.mpr hseq)
  · intro i hi
    rw [List.mem_singleton.mp hi, hempty]
    rfl
  · intro i hi
    rw [List.mem_singleton.mp hi, hempty]
    exact ⟨r, if_pos rfl⟩

end insert

/-! ## The unique index -/

/-- No two rows can come to have the same key: neither committed ones, nor written ones, nor a written
and a committed one, unless its writer has replaced the latter too. -/
structure Unique (key : ρ → Option κ) (s : Store ρ) : Prop where
  committed : ∀ i j r r' k, i ≠ j → (s.cells i).committed = some r →
    (s.cells j).committed = some r' → key r = some k → key r' ≠ some k
  working : ∀ i j t t' r r' k, i ≠ j → (s.cells i).working = some (t, r) →
    (s.cells j).working = some (t', r') → key r = some k → key r' ≠ some k
  mixed : ∀ i j t r r' k, i ≠ j → (s.cells i).working = some (t, r) →
    (s.cells j).committed = some r' → key r = some k → key r' = some k →
      (s.cells j).owned (some t) = true

section unique
variable {key : ρ → Option κ} {s s' : Store ρ}

theorem unique_writes_some {t : Nat} {ids : List Nat} (h : Unique key s)
    (hw : Writes key s s' (some t) ids) : Unique key s' := by
  have hcommitted : ∀ i, (s'.cells i).committed = (s.cells i).committed := by
    intro i
    by_cases hi : i ∈ ids
    · obtain ⟨r, hr⟩ := hw.wrote i hi
      rw [hr, Cell.committed_write_some]
    · rw [hw.same i hi]
  have hview : ∀ i ∈ ids, ∃ r, (s'.cells i).working = some (t, r) ∧
      (s'.cells i).view (some t) = some r := by
    intro i hi
    obtain ⟨r, hr⟩ := hw.wrote i hi
    rw [hr]
    exact ⟨r, rfl, Cell.view_of_working rfl⟩
  have hclash : ∀ i ∈ ids, ∀ j, i ≠ j → ∀ u r k, (s'.cells i).working = some (u, r) →
      key r = some k → ∀ v ∈ (s'.cells j).versions (some t), key v ≠ some k := by
    intro i hi j hij u r k hr hk
    obtain ⟨r', hr', hview⟩ := hview i hi
    obtain ⟨-, rfl⟩ := Prod.mk.inj (Option.some.inj (hr.symm.trans hr'))
    exact hw.clash i hi j (Ne.symm hij) r k hview hk
  refine ⟨?_, ?_, ?_⟩
  · intro i j r r' k hij hr hr'
    rw [hcommitted] at hr hr'
    exact h.committed i j r r' k hij hr hr'
  · intro i j u u' r r' k hij hr hr' hk hk'
    by_cases hi : i ∈ ids
    · exact hclash i hi j hij u r k hr hk r' (Cell.mem_versions_working hr') hk'
    · by_cases hj : j ∈ ids
      · exact hclash j hj i (Ne.symm hij) u' r' k hr' hk' r (Cell.mem_versions_working hr) hk
      · rw [hw.same i hi] at hr
        rw [hw.same j hj] at hr'
        exact h.working i j u u' r r' k hij hr hr' hk hk'
  · intro i j u r r' k hij hr hr' hk hk'
    by_cases hi : i ∈ ids
    · obtain ⟨r'', hr'', -⟩ := hview i hi
      obtain ⟨rfl, -⟩ := Prod.mk.inj (Option.some.inj (hr.symm.trans hr''))
      by_contra howned
      have howned : (s'.cells j).owned (some u) = false := eq_false_of_ne_true howned
      exact hclash i hi j hij u r k hr hk r' (Cell.mem_versions_committed howned hr') hk'
    · rw [hw.same i hi] at hr
      rw [hcommitted] at hr'
      have howned := h.mixed i j u r r' k hij hr hr' hk hk'
      by_cases hj : j ∈ ids
      · obtain ⟨v, hv⟩ := Cell.owned_iff.mp howned
        have htu := Cell.owned_of_not_lockedByOther (hw.free j hj) hv
        obtain ⟨w, hw', -⟩ := hview j hj
        exact Cell.owned_iff.mpr ⟨w, by rw [hw', Option.some.inj htu]⟩
      · rw [hw.same j hj]
        exact howned

theorem unique_writes_none {ids : List Nat} (h : Unique key s) (hw : Writes key s s' none ids) :
    Unique key s' := by
  have hfree : ∀ i ∈ ids, (s.cells i).working = none := by
    intro i hi
    have := hw.free i hi
    simpa [Cell.lockedByOther] using this
  have hworking : ∀ i, (s'.cells i).working = (s.cells i).working := by
    intro i
    by_cases hi : i ∈ ids
    · obtain ⟨r, hr⟩ := hw.wrote i hi
      rw [hr, Cell.working_write_none]
    · rw [hw.same i hi]
  have hclash : ∀ i ∈ ids, ∀ j, i ≠ j → ∀ r k, (s'.cells i).committed = some r →
      key r = some k → ∀ v ∈ (s'.cells j).versions none, key v ≠ some k := by
    intro i hi j hij r k hr hk
    exact hw.clash i hi j (Ne.symm hij) r k ((Cell.view_none _).trans hr) hk
  refine ⟨?_, ?_, ?_⟩
  · intro i j r r' k hij hr hr' hk hk'
    by_cases hi : i ∈ ids
    · exact hclash i hi j hij r k hr hk r'
        (Cell.mem_versions_committed (Cell.owned_none _) hr') hk'
    · by_cases hj : j ∈ ids
      · exact hclash j hj i (Ne.symm hij) r' k hr' hk' r
          (Cell.mem_versions_committed (Cell.owned_none _) hr) hk
      · rw [hw.same i hi] at hr
        rw [hw.same j hj] at hr'
        exact h.committed i j r r' k hij hr hr' hk hk'
  · intro i j t t' r r' k hij hr hr'
    rw [hworking] at hr hr'
    exact h.working i j t t' r r' k hij hr hr'
  · intro i j t r r' k hij hr hr' hk hk'
    by_cases hj : j ∈ ids
    · exact absurd hk (hclash j hj i (Ne.symm hij) r' k hr' hk' r (Cell.mem_versions_working hr))
    · rw [hworking] at hr
      rw [hw.same j hj] at hr' ⊢
      exact h.mixed i j t r r' k hij hr hr' hk hk'

theorem unique_writes {tx : Option Nat} {ids : List Nat} (h : Unique key s)
    (hw : Writes key s s' tx ids) : Unique key s' := by
  cases tx with
  | none => exact unique_writes_none h hw
  | some t => exact unique_writes_some h hw

theorem unique_commit (h : Unique key s) (t : Nat) : Unique key (s.commit t) := by
  have hold : ∀ i r, ((s.commit t).cells i).committed = some r →
      (s.cells i).working = some (t, r) ∨
        (s.cells i).owned (some t) = false ∧ (s.cells i).committed = some r :=
    fun i r hr => Cell.committed_commit_eq_some hr
  have hother : ∀ i u r, ((s.commit t).cells i).working = some (u, r) →
      (s.cells i).owned (some t) = false ∧ (s.cells i).working = some (u, r) :=
    fun i u r hr => Cell.working_commit_eq_some hr
  refine ⟨?_, ?_, ?_⟩
  · intro i j r r' k hij hr hr' hk hk'
    rcases hold i r hr with hr | ⟨hi, hr⟩
    · rcases hold j r' hr' with hr' | ⟨hj, hr'⟩
      · exact h.working i j t t r r' k hij hr hr' hk hk'
      · have := h.mixed i j t r r' k hij hr hr' hk hk'
        rw [hj] at this
        contradiction
    · rcases hold j r' hr' with hr' | ⟨-, hr'⟩
      · have := h.mixed j i t r' r k (Ne.symm hij) hr' hr hk' hk
        rw [hi] at this
        contradiction
      · exact h.committed i j r r' k hij hr hr' hk hk'
  · intro i j u u' r r' k hij hr hr'
    exact h.working i j u u' r r' k hij (hother i u r hr).2 (hother j u' r' hr').2
  · intro i j u r r' k hij hr hr' hk hk'
    obtain ⟨hi, hr⟩ := hother i u r hr
    rcases hold j r' hr' with hr' | ⟨hj, hr'⟩
    · exact absurd hk' (h.working i j u t r r' k hij hr hr' hk)
    · have howned := h.mixed i j u r r' k hij hr hr' hk hk'
      obtain ⟨v, hv⟩ := Cell.owned_iff.mp howned
      refine Cell.owned_iff.mpr ⟨v, ?_⟩
      show ((s.cells j).commit t).working = _
      rw [Cell.working_commit, hj]
      exact hv

theorem unique_singleton (r : ρ) : Unique key (Store.ofRows [r]) := by
  refine ⟨?_, ?_, ?_⟩
  · intro i j a b k hij ha hb
    have hi := (List.getElem?_eq_some_iff.mp ha).1
    have hj := (List.getElem?_eq_some_iff.mp hb).1
    rw [List.length_singleton] at hi hj
    omega
  · intro i j t t' a b k hij ha
    contradiction
  · intro i j t a b k hij ha
    contradiction

theorem unique_rollback (h : Unique key s) (t : Nat) : Unique key (s.rollback t) := by
  have hcommitted : ∀ i, ((s.rollback t).cells i).committed = (s.cells i).committed :=
    fun i => Cell.committed_rollback _ _
  have hother : ∀ i u r, ((s.rollback t).cells i).working = some (u, r) →
      u ≠ t ∧ (s.cells i).working = some (u, r) :=
    fun i u r hr => Cell.working_rollback_eq_some hr
  refine ⟨?_, ?_, ?_⟩
  · intro i j r r' k hij hr hr'
    rw [hcommitted] at hr hr'
    exact h.committed i j r r' k hij hr hr'
  · intro i j u u' r r' k hij hr hr'
    exact h.working i j u u' r r' k hij (hother i u r hr).2 (hother j u' r' hr').2
  · intro i j u r r' k hij hr hr' hk hk'
    obtain ⟨hut, hr⟩ := hother i u r hr
    rw [hcommitted] at hr'
    obtain ⟨v, hv⟩ := Cell.owned_iff.mp (h.mixed i j u r r' k hij hr hr' hk hk')
    refine Cell.owned_iff.mpr ⟨v, ?_⟩
    show ((s.cells j).rollback t).working = _
    rw [Cell.working_rollback, if_neg]
    · exact hv
    · intro howned
      obtain ⟨w, hw⟩ := Cell.owned_iff.mp howned
      exact hut (Prod.mk.inj (Option.some.inj (hv.symm.trans hw))).1

end unique

/-! ## Columns that no statement changes -/

theorem Cell.exists_view_write {β : Type} {g : ρ → β} {c : Cell ρ} {tx : Option Nat} {t : Nat}
    {r r' v : ρ} (hview : c.view tx = some r) (hg : g r' = g r)
    (hfree : c.lockedByOther tx = false) (hv : c.view (some t) = some v) :
    ∃ v', (c.write tx r').view (some t) = some v' ∧ g v' = g v := by
  cases tx with
  | none =>
    have hnone : c.working = none := by
      cases hw : c.working with
      | none => rfl
      | some p => exact absurd (Cell.owned_of_not_lockedByOther hfree hw) (by simp)
    refine ⟨r', ?_, ?_⟩
    · rw [Cell.view, Cell.working_write_none, hnone]
      rfl
    · rw [Cell.view, hnone] at hv
      rw [Cell.view_none] at hview
      rw [hg, Option.some.inj (hview.symm.trans hv)]
  | some u =>
    by_cases htu : t = u
    · rw [htu, hview] at hv
      exact ⟨r', by rw [htu]; exact Cell.view_of_working rfl, by rw [hg, Option.some.inj hv]⟩
    · have hcommitted : ∀ w, (c.write (some u) w).view (some t) = c.committed := by
        intro w
        rw [Cell.view_of_not_owned]
        · rfl
        · rw [Cell.owned, Cell.working_write_some]
          simpa using htu
      have hold : c.view (some t) = c.committed := by
        apply Cell.view_of_not_owned
        rw [← Bool.not_eq_true]
        intro howned
        obtain ⟨w, hw⟩ := Cell.owned_iff.mp howned
        have hut := Cell.owned_of_not_lockedByOther hfree hw
        exact htu (Option.some.inj hut).symm
      exact ⟨v, by rw [hcommitted, ← hold, hv], rfl⟩

/-- The versions of the row agree in a column. -/
def Cell.Fixed {β : Type} (g : ρ → β) (c : Cell ρ) : Prop :=
  ∀ t r r', c.working = some (t, r) → c.committed = some r' → g r = g r'

namespace Cell.Fixed

variable {β : Type} {g : ρ → β} {c : Cell ρ} {tx : Option Nat} {t u : Nat} {r r' v v' : ρ}

theorem view_committed (h : c.Fixed g) (hv : c.view tx = some v) (hr : c.committed = some r) :
    g v = g r := by
  unfold view at hv
  split at hv
  · rename_i u w hw
    split at hv
    · rw [← Option.some.inj hv]
      exact h u w r hw hr
    · rw [hr] at hv
      rw [Option.some.inj hv]
  · rw [hr] at hv
    rw [Option.some.inj hv]

theorem view_eq (h : c.Fixed g) (hv : c.view (some t) = some v) (hv' : c.view (some u) = some v') :
    g v = g v' := by
  by_cases howned : c.owned (some u) = true
  · obtain ⟨w, hw⟩ := Cell.owned_iff.mp howned
    obtain rfl : w = v' := Option.some.inj ((Cell.view_of_working hw).symm.trans hv')
    by_cases hut : t = u
    · rw [hut, hv'] at hv
      rw [Option.some.inj hv]
    · have hcommitted : c.view (some t) = c.committed := by
        apply Cell.view_of_not_owned
        rw [Cell.owned, hw]
        simpa using hut
      rw [hcommitted] at hv
      exact (h u w v hw hv).symm
  · have hcommitted := Cell.view_of_not_owned (eq_false_of_ne_true howned)
    exact h.view_committed hv (hcommitted.symm.trans hv')

theorem write (h : c.Fixed g) (hview : c.view tx = some r) (hg : g r' = g r)
    (hfree : c.lockedByOther tx = false) : (c.write tx r').Fixed g := by
  intro t w w' hw hw'
  cases tx with
  | none =>
    have := Cell.owned_of_not_lockedByOther hfree hw
    contradiction
  | some u =>
    rw [Cell.working_write_some] at hw
    obtain ⟨-, rfl⟩ := Prod.mk.inj (Option.some.inj hw)
    rw [hg]
    exact h.view_committed hview hw'

theorem commit (h : c.Fixed g) (t : Nat) : (c.commit t).Fixed g := by
  intro u w w' hw hw'
  rw [Cell.working_commit] at hw
  split at hw
  · contradiction
  · rename_i howned
    rw [Cell.committed_commit, if_neg howned] at hw'
    exact h u w w' hw hw'

theorem rollback (h : c.Fixed g) (t : Nat) : (c.rollback t).Fixed g := by
  intro u w w' hw hw'
  rw [Cell.working_rollback] at hw
  rw [Cell.committed_rollback] at hw'
  split at hw
  · contradiction
  · exact h u w w' hw hw'

theorem view_commit (h : c.Fixed g) (u : Nat) (hv : c.view (some t) = some v) :
    ∃ v', (c.commit u).view (some t) = some v' ∧ g v' = g v := by
  by_cases howned : c.owned (some u) = true
  · obtain ⟨w, hw⟩ := Cell.owned_iff.mp howned
    refine ⟨w, ?_, ?_⟩
    · rw [Cell.view_of_not_owned]
      · rw [Cell.committed_commit, if_pos howned, Cell.view_of_working hw]
      · rw [Cell.owned, Cell.working_commit, if_pos howned]
    · exact h.view_eq (Cell.view_of_working hw) hv
  · have hsame : c.commit u = c := by
      rw [Cell.commit]
      split
      · rename_i w r hw
        rw [if_neg]
        intro hwu
        exact howned (Cell.owned_iff.mpr ⟨r, hwu ▸ hw⟩)
      · rfl
    exact ⟨v, by rw [hsame]; exact hv, rfl⟩

end Cell.Fixed

theorem Cell.view_rollback {c : Cell ρ} {t u : Nat} (htu : t ≠ u) :
    (c.rollback u).view (some t) = c.view (some t) := by
  cases hw : c.working with
  | none => rw [Cell.rollback, hw]
  | some p =>
    obtain ⟨w, r⟩ := p
    rw [Cell.rollback, hw]
    dsimp only
    by_cases hwu : w = u
    · rw [if_pos hwu, Cell.view, Cell.view, hw]
      dsimp only
      rw [if_neg]
      intro htw
      exact htu ((Option.some.inj htw).trans hwu)
    · rw [if_neg hwu]

/-! ## A transaction alone

Committing at once is running the same statements in a transaction, as long as nobody else has a
version under way: `During.update` and `During.insert` compare the two statement by statement, and
`During.commit_cells` and `During.rollback_cells` at the end. -/

def Outcome.map {α β : Type} (f : α → β) : Outcome α → Outcome β
  | .blocked => .blocked
  | .violation => .violation
  | .done a => .done (f a)

namespace Cell

variable {c : Cell ρ} {t : Nat} (h : ∀ u r, c.working = some (u, r) → u = t)
include h

theorem lockedByOther_of_sole : c.lockedByOther (some t) = false := by
  unfold lockedByOther owned
  cases hw : c.working with
  | none => rfl
  | some p =>
    obtain ⟨u, r⟩ := p
    simp [h u r hw]

theorem commit_of_sole : c.commit t = ⟨c.view (some t), none⟩ := by
  obtain ⟨committed, working⟩ := c
  cases working with
  | none => rfl
  | some p =>
    obtain ⟨u, r⟩ := p
    simp [commit, view, h u r rfl]

theorem versions_of_sole : c.versions (some t) = (c.commit t).versions none := by
  rw [commit_of_sole h, versions, versions]
  unfold owned view
  cases hw : c.working with
  | none => simp
  | some p =>
    obtain ⟨u, r⟩ := p
    simp [h u r hw]

theorem rollback_of_sole : c.rollback t = ⟨c.committed, none⟩ := by
  obtain ⟨committed, working⟩ := c
  cases working with
  | none => rfl
  | some p =>
    obtain ⟨u, r⟩ := p
    simp [rollback, h u r rfl]

end Cell

/-- `s` in the transaction `t`, which began on `s0`: what is committed is as it was then, and only `t`
has versions under way. -/
structure Store.During (s0 : Store ρ) (t : Nat) (s : Store ρ) : Prop where
  start : ∀ i, (s0.cells i).working = none
  committed : ∀ i, (s.cells i).committed = (s0.cells i).committed
  sole : ∀ i u r, (s.cells i).working = some (u, r) → u = t

namespace Store.During

variable {s0 s : Store ρ} {t : Nat}

theorem refl (h : ∀ i, (s.cells i).working = none) (t : Nat) : s.During t s where
  start := h
  committed _ := rfl
  sole := by
    intro i u r hw
    rw [h i] at hw
    contradiction

theorem commit_start (h : ∀ i, (s.cells i).working = none) (t : Nat) : s.commit t = s := by
  refine Store.ext (funext fun i => ?_) rfl
  show (s.cells i).commit t = s.cells i
  rw [Cell.commit, h i]

section statement
variable (h : s0.During t s)
include h

theorem rollback_cells : (s.rollback t).cells = s0.cells := by
  funext i
  show (s.cells i).rollback t = _
  rw [Cell.rollback_of_sole (h.sole i), h.committed i, ← h.start i]

theorem commit_cells (i : Nat) : (s.commit t).cells i = ⟨(s.cells i).view (some t), none⟩ :=
  Cell.commit_of_sole (h.sole i)

theorem commit_view (i : Nat) :
    ((s.commit t).cells i).committed = (s.cells i).view (some t) := by
  rw [h.commit_cells i]

theorem select_commit (p : Nat → ρ → Bool) :
    (s.commit t).select none p = s.select (some t) p := by
  refine List.filter_congr fun i _ => ?_
  rw [h.commit_cells i, Cell.view_none]

theorem checked_commit [DecidableEq κ] {α β : Type} (key : ρ → Option κ) (ids : List Nat) (a : α)
    (g : α → β) : Store.checked key (s.commit t) none ids (g a) =
      (Store.checked key s (some t) ids a).map g := by
  have hclashing : (s.commit t).clashing key none ids = s.clashing key (some t) ids := by
    refine List.filter_congr fun j _ => ?_
    have hj : ((s.commit t).cells j).versions none = (s.cells j).versions (some t) :=
      (Cell.versions_of_sole (h.sole j)).symm
    simp only [hj, Cell.view_none, h.commit_view]
  have hfree : ∀ j, ((s.commit t).cells j).lockedByOther none =
      (s.cells j).lockedByOther (some t) := by
    intro j
    rw [h.commit_cells j, Cell.lockedByOther_of_sole (h.sole j)]
    rfl
  unfold Store.checked
  rw [hclashing]
  cases s.clashing key (some t) ids with
  | nil => rfl
  | cons j js =>
    simp only [hfree]
    split
    · rfl
    · rfl

theorem write (ids : List Nat) (f : Nat → ρ → ρ) : s0.During t (s.write (some t) ids f) := by
  have hcell : ∀ i, (s.write (some t) ids f).cells i = s.cells i ∨
      ∃ r, (s.write (some t) ids f).cells i = (s.cells i).write (some t) r := by
    intro i
    unfold Store.write
    dsimp only
    split
    · split
      · exact .inr ⟨_, rfl⟩
      · exact .inl rfl
    · exact .inl rfl
  refine ⟨h.start, ?_, ?_⟩
  · intro i
    rcases hcell i with hi | ⟨r, hi⟩
    · rw [hi, h.committed i]
    · rw [hi, Cell.committed_write_some, h.committed i]
  · intro i u r hw
    rcases hcell i with hi | ⟨r', hi⟩
    · rw [hi] at hw
      exact h.sole i u r hw
    · rw [hi, Cell.working_write_some] at hw
      exact (Prod.mk.inj (Option.some.inj hw)).1.symm

theorem commit_write (ids : List Nat) (f : Nat → ρ → ρ) :
    (s.write (some t) ids f).commit t = (s.commit t).write none ids f := by
  refine Store.ext (funext fun i => ?_) rfl
  rw [(h.write ids f).commit_cells i]
  unfold Store.write
  dsimp only
  rw [h.commit_cells i, Cell.view_none]
  split
  · cases hv : (s.cells i).view (some t) with
    | none => simp only [hv]
    | some r =>
      show Cell.mk (((s.cells i).write (some t) (f i r)).view (some t)) none = _
      rw [Cell.view_of_working rfl]
      rfl
  · rfl

theorem append (r : ρ) : s0.During t (s.append (some t) r) := by
  have hempty : s.cells s.seq = Cell.empty := s.fresh _ (Nat.le_refl _)
  refine ⟨h.start, ?_, ?_⟩
  · intro i
    rw [← h.committed i]
    unfold Store.append
    dsimp only
    split
    · rename_i hi
      rw [hi, hempty]
      rfl
    · rfl
  · intro i u r' hw
    unfold Store.append at hw
    dsimp only at hw
    split at hw
    · exact (Prod.mk.inj (Option.some.inj hw)).1.symm
    · exact h.sole i u r' hw

theorem commit_append (r : ρ) :
    (s.append (some t) r).commit t = (s.commit t).append none r := by
  refine Store.ext (funext fun i => ?_) rfl
  rw [(h.append r).commit_cells i]
  show _ = if i = s.seq then Cell.empty.write none r else (s.commit t).cells i
  unfold Store.append
  dsimp only
  split
  · rw [Cell.view_of_working rfl]
    rfl
  · rw [h.commit_cells i]

theorem checked_ne_blocked [DecidableEq κ] {α : Type} (key : ρ → Option κ) (ids : List Nat) (a : α) :
    Store.checked key s (some t) ids a ≠ .blocked := by
  unfold Store.checked
  split
  · nofun
  · rename_i js _
    rw [if_neg]
    · nofun
    · rw [List.any_eq_true]
      rintro ⟨j, -, hj⟩
      rw [Cell.lockedByOther_of_sole (h.sole j)] at hj
      contradiction

/-- An update in the transaction and the same one committed at once. -/
theorem update [DecidableEq κ] (key : ρ → Option κ) (p : Nat → ρ → Bool) (f : Nat → ρ → ρ) :
    s.update key (some t) p f = .violation ∧ (s.commit t).update key none p f = .violation ∨
      ∃ ids s', s.update key (some t) p f = .done (ids, s') ∧
        (s.commit t).update key none p f = .done (ids, s'.commit t) ∧ s0.During t s' := by
  have hmine : ¬ (s.select (some t) p).any (fun i => (s.cells i).lockedByOther (some t)) = true := by
    rw [List.any_eq_true]
    rintro ⟨i, -, hi⟩
    rw [Cell.lockedByOther_of_sole (h.sole i)] at hi
    contradiction
  have hfree : ¬ (s.select (some t) p).any (fun i => ((s.commit t).cells i).lockedByOther none) =
      true := by
    rw [List.any_eq_true]
    rintro ⟨i, -, hi⟩
    rw [h.commit_cells i] at hi
    contradiction
  have hcommit : (s.commit t).update key none p f =
      (s.update key (some t) p f).map fun r => (r.1, r.2.commit t) := by
    unfold Store.update
    dsimp only
    rw [h.select_commit, if_neg hmine, if_neg hfree, ← h.commit_write]
    exact (h.write _ f).checked_commit key _ (_, s.write (some t) _ f)
      fun r : List Nat × Store ρ => (r.1, r.2.commit t)
  rw [hcommit]
  cases ho : s.update key (some t) p f with
  | blocked =>
    unfold Store.update at ho
    dsimp only at ho
    rw [if_neg hmine] at ho
    exact absurd ho ((h.write _ f).checked_ne_blocked key _ _)
  | violation => exact .inl ⟨rfl, rfl⟩
  | done r =>
    obtain ⟨ids, s'⟩ := r
    refine .inr ⟨ids, s', rfl, rfl, ?_⟩
    rw [(update_eq ho).2.1]
    exact h.write ids f

theorem update_keyless (κ : Type) [DecidableEq κ] (p : Nat → ρ → Bool) (f : Nat → ρ → ρ) :
    ∃ ids s', s.update (fun _ => (none : Option κ)) (some t) p f = .done (ids, s') ∧
      (s.commit t).update (fun _ => (none : Option κ)) none p f = .done (ids, s'.commit t) ∧
        s0.During t s' := by
  rcases h.update (fun _ => (none : Option κ)) p f with ⟨-, hviolation⟩ | hdone
  · unfold Store.update at hviolation
    dsimp only at hviolation
    split at hviolation
    · contradiction
    · rw [checked_keyless] at hviolation
      contradiction
  · exact hdone

/-- The same for an insert. -/
theorem insert [DecidableEq κ] (key : ρ → Option κ) (r : ρ) :
    s.insert key (some t) r = .violation ∧ (s.commit t).insert key none r = .violation ∨
      ∃ s', s.insert key (some t) r = .done s' ∧
        (s.commit t).insert key none r = .done (s'.commit t) ∧ s0.During t s' := by
  have hcommit : (s.commit t).insert key none r = (s.insert key (some t) r).map (·.commit t) := by
    unfold Store.insert
    rw [← h.commit_append]
    exact (h.append r).checked_commit key _ (s.append (some t) r) (·.commit t)
  rw [hcommit]
  cases ho : s.insert key (some t) r with
  | blocked => exact absurd ho ((h.append r).checked_ne_blocked key _ _)
  | violation => exact .inl ⟨rfl, rfl⟩
  | done s' =>
    refine .inr ⟨s', rfl, rfl, ?_⟩
    rw [insert_eq ho]
    exact h.append r

end statement

end Store.During

end Obliguard.ReadCommitted

import Obliguard.Lib.Forest
import Obliguard.Lib.Keyed
import Obliguard.Lib.Runs
import Obliguard.Server.Schema

/-!
# Groups and their closure

`create`, `move` and `delete` of `server/src/services/group.service.ts` over the parent column of
`monitor_groups` and the table `group_closure`, statement by statement. The foreign keys of both tables are part
of a `GroupDb`: a statement that violates one fails, and the deletion of a group takes what is below it and all
links of that.

`Correct` says that the parents form a forest and that the closure holds its paths; each completed operation keeps
it (`correct_create`, `correct_move`, `correct_delete`).
-/

namespace Obliguard.Server

open Forest Runs

/-- The columns of a group that give its place. -/
structure GroupRow where
  id : Nat
  parentId : Option Nat
deriving DecidableEq

/-- The primary key of `group_closure`. -/
def Closure.pair (c : Closure) : Nat × Nat := (c.ancestorId, c.descendantId)

/-- The two tables, with their foreign keys. -/
structure GroupDb where
  groups : Table GroupRow.id
  closure : Keyed Closure.pair
  parent_fk : ∀ r ∈ groups.rows, ∀ p, r.parentId = some p → ∃ q ∈ groups.rows, q.id = p
  closure_fk : ∀ c ∈ closure.rows,
    (∃ q ∈ groups.rows, q.id = c.ancestorId) ∧ ∃ q ∈ groups.rows, q.id = c.descendantId

namespace GroupDb

/-- No groups. -/
def empty : GroupDb :=
  ⟨Table.empty, Keyed.empty, fun _ h => absurd h List.not_mem_nil, fun _ h => absurd h List.not_mem_nil⟩

/-- The group exists. -/
def Has (db : GroupDb) (id : Nat) : Prop := ∃ q ∈ db.groups.rows, q.id = id

instance (db : GroupDb) (id : Nat) : Decidable (db.Has id) :=
  inferInstanceAs (Decidable (∃ q ∈ db.groups.rows, q.id = id))

def parentOf (db : GroupDb) (id : Nat) : Option Nat := (db.groups.find id).bind (·.parentId)

section parents
variable {db : GroupDb} {d e x : Nat}

theorem has_of_parent (h : db.parentOf d = some e) : db.Has d ∧ db.Has e := by
  obtain ⟨r, hr, hp⟩ := Option.bind_eq_some_iff.mp h
  rw [Table.find_eq_some] at hr
  exact ⟨⟨r, hr.1, hr.2⟩, db.parent_fk r hr.1 e hp⟩

/-- The search for what is below a group. -/
def isBelow (db : GroupDb) (x d : Nat) : Bool :=
  (List.range (db.groups.rows.length + 1)).any fun n => Forest.up db.parentOf n d == some x

theorem isBelow_iff : db.isBelow x d = true ↔ Below db.parentOf x d := by
  have hnodes : ∀ d e, db.parentOf d = some e → d ∈ db.groups.rows.map (·.id) := by
    intro d e h
    obtain ⟨q, hq, hid⟩ := (has_of_parent h).1
    exact List.mem_map.mpr ⟨q, hq, hid⟩
  rw [below_iff_le hnodes, isBelow, List.any_eq_true, List.length_map]
  refine exists_congr fun n => ?_
  rw [List.mem_range, Nat.lt_succ_iff, beq_iff_eq]

end parents

/-! ## Statements -/

/-- `INSERT INTO monitor_groups`. -/
def insertGroup (db : GroupDb) (parentId : Option Nat) : Option (Nat × GroupDb) :=
  if h : ∀ p, parentId = some p → db.Has p then some (db.groups.seq, {
    groups := db.groups.insert (fun id => ⟨id, parentId⟩) fun _ => rfl
    closure := db.closure
    parent_fk := by
      have hold : ∀ p, db.Has p →
          ∃ q ∈ (db.groups.insert (fun id => ⟨id, parentId⟩) fun _ => rfl).rows, q.id = p :=
        fun p ⟨q, hq, hid⟩ => ⟨q, Table.mem_insert.mpr (.inl hq), hid⟩
      intro r hr p hp
      rcases Table.mem_insert.mp hr with hr | rfl
      · exact hold p (db.parent_fk r hr p hp)
      · exact hold p (h p hp)
    closure_fk := fun c hc =>
      (db.closure_fk c hc).imp (fun ⟨q, hq, hid⟩ => ⟨q, Table.mem_insert.mpr (.inl hq), hid⟩)
        fun ⟨q, hq, hid⟩ => ⟨q, Table.mem_insert.mpr (.inl hq), hid⟩ })
  else none

/-- `INSERT INTO group_closure`. -/
def insertLinks (db : GroupDb) (links : List Closure) : Option GroupDb :=
  if h : ∀ c ∈ links, db.Has c.ancestorId ∧ db.Has c.descendantId then
    match hinsert : db.closure.insertAll links with
    | some closure => some { db with
        closure := closure
        closure_fk := fun c hc => ((Keyed.mem_insertAll hinsert).mp hc).elim (db.closure_fk c) (h c) }
    | none => none
  else none

/-- `DELETE FROM group_closure`. -/
def deleteLinks (db : GroupDb) (p : Closure → Bool) : GroupDb where
  groups := db.groups
  closure := db.closure.delete p
  parent_fk := db.parent_fk
  closure_fk := fun c hc => db.closure_fk c (Keyed.mem_delete.mp hc).1

/-- `UPDATE monitor_groups SET parent_id`. -/
def setParent (db : GroupDb) (id : Nat) (parentId : Option Nat) : Option GroupDb :=
  if h : db.Has id → ∀ p, parentId = some p → db.Has p then some {
    groups := db.groups.update (fun r => r.id = id) (fun r => { r with parentId := parentId }) fun _ => rfl
    closure := db.closure
    parent_fk := by
      have hold : ∀ p, db.Has p → ∃ q ∈ (db.groups.update (fun r => r.id = id)
          (fun r => { r with parentId := parentId }) fun _ => rfl).rows, q.id = p := by
        rintro p ⟨q, hq, rfl⟩
        refine ⟨_, Table.mem_update.mpr ⟨q, hq, rfl⟩, ?_⟩
        split <;> rfl
      intro r hr p hp
      obtain ⟨a, ha, rfl⟩ := Table.mem_update.mp hr
      split at hp
      · rename_i hid
        exact hold p (h ⟨a, ha, of_decide_eq_true hid⟩ p hp)
      · exact hold p (db.parent_fk a ha p hp)
    closure_fk := by
      have hold : ∀ p, db.Has p → ∃ q ∈ (db.groups.update (fun r => r.id = id)
          (fun r => { r with parentId := parentId }) fun _ => rfl).rows, q.id = p := by
        rintro p ⟨q, hq, rfl⟩
        refine ⟨_, Table.mem_update.mpr ⟨q, hq, rfl⟩, ?_⟩
        split <;> rfl
      exact fun c hc => (db.closure_fk c hc).imp (hold _) (hold _) }
  else none

/-- `DELETE FROM monitor_groups WHERE id`, with the cascades to the groups below and to their links. -/
def deleteGroup (db : GroupDb) (id : Nat) : GroupDb where
  groups := db.groups.delete fun r => db.isBelow id r.id
  closure := db.closure.delete fun c => db.isBelow id c.ancestorId || db.isBelow id c.descendantId
  parent_fk := by
    intro r hr p hp
    rw [Table.mem_delete] at hr
    obtain ⟨q, hq, rfl⟩ := db.parent_fk r hr.1 p hp
    refine ⟨q, Table.mem_delete.mpr ⟨hq, ?_⟩, rfl⟩
    have hparent : db.parentOf r.id = some q.id :=
      Option.bind_eq_some_iff.mpr ⟨r, Table.find_eq_some.mpr ⟨hr.1, rfl⟩, hp⟩
    rw [← Bool.not_eq_true, isBelow_iff] at hr ⊢
    rintro ⟨n, hn⟩
    exact hr.2 ⟨n + 1, by rw [up_succ_of_parent hparent, hn]⟩
  closure_fk := by
    intro c hc
    rw [Keyed.mem_delete, Bool.or_eq_false_iff] at hc
    obtain ⟨⟨q, hq, hid⟩, q', hq', hid'⟩ := db.closure_fk c hc.1
    exact ⟨⟨q, Table.mem_delete.mpr ⟨hq, by rw [hid]; exact hc.2.1⟩, hid⟩,
      q', Table.mem_delete.mpr ⟨hq', by rw [hid']; exact hc.2.2⟩, hid'⟩

/-- The links of a new group, from those of its parent. -/
def pathsFrom (db : GroupDb) (id parentId : Nat) : List Closure :=
  (db.closure.rows.filter fun gc => gc.descendantId = parentId).map fun gc =>
    ⟨gc.ancestorId, id, gc.depth + 1⟩

/-- The subtree of a group. -/
def subtreeIds (db : GroupDb) (id : Nat) : List Nat :=
  (db.closure.rows.filter fun c => c.ancestorId = id).map (·.descendantId)

/-- The links that leave the subtree. -/
def removeOutside (db : GroupDb) (descIds : List Nat) : GroupDb :=
  db.deleteLinks fun c => decide (c.descendantId ∈ descIds ∧ c.ancestorId ∉ descIds)

/-- The links from the ancestors of the new parent to the subtree. -/
def crossLinks (db : GroupDb) (id newParentId : Nat) : List Closure :=
  (db.closure.rows.filter fun p => p.descendantId = newParentId).flatMap fun p =>
    (db.closure.rows.filter fun s => s.ancestorId = id).map fun s =>
      ⟨p.ancestorId, s.descendantId, p.depth + s.depth + 1⟩

/-- The check against a circular reference. -/
def isDescendant (db : GroupDb) (id newParentId : Nat) : Bool :=
  db.closure.rows.any fun c => c.ancestorId = id && c.descendantId = newParentId

end GroupDb

/-! ## Operations -/

inductive GroupOp
  | create (parentId : Option Nat)
  | move (id : Nat) (newParentId : Option Nat)
  | delete (id : Nat)
deriving DecidableEq

inductive GroupOutcome
  | group (id : Nat)
  | notFound
  /-- "Cannot move group into its own descendant". -/
  | circular
  | deleted (existed : Bool)
deriving DecidableEq

namespace GroupDb

/-- `create` after the self-reference. -/
def copyPaths (id : Nat) (parentId : Option Nat) (db : GroupDb) : Option GroupDb :=
  match parentId with
  | some p => if p = 0 then some db else db.insertLinks (db.pathsFrom id p)
  | none => some db

/-- `create` after the insert of the group. -/
def linkGroup (id : Nat) (parentId : Option Nat) (db : GroupDb) : Option GroupDb :=
  (db.insertLinks [⟨id, id, 0⟩]).bind (copyPaths id parentId)

def create (parentId : Option Nat) (db : GroupDb) : Option (GroupOutcome × GroupDb) :=
  (db.insertGroup parentId).bind fun inserted =>
    (linkGroup inserted.1 parentId inserted.2).map fun db => (.group inserted.1, db)

/-- `move` after the outside links are gone. -/
def reconnect (id : Nat) (newParentId : Option Nat) (db : GroupDb) : Option GroupDb :=
  match newParentId with
  | some p => (db.insertLinks (db.crossLinks id p)).bind fun db => db.setParent id newParentId
  | none => db.setParent id newParentId

/-- `move` after the checks. -/
def relink (id : Nat) (newParentId : Option Nat) (db : GroupDb) : Option GroupDb :=
  reconnect id newParentId (db.removeOutside (db.subtreeIds id))

def move (id : Nat) (newParentId : Option Nat) (db : GroupDb) : Option (GroupOutcome × GroupDb) :=
  if ¬ db.Has id then some (.notFound, db)
  else if newParentId.any (db.isDescendant id) then some (.circular, db)
  else (relink id newParentId db).map fun db => (.group id, db)

def delete (id : Nat) (db : GroupDb) : GroupOutcome × GroupDb :=
  (.deleted (decide (db.Has id)), db.deleteGroup id)

/-- A completed operation; `none` is a database error. -/
def perform (db : GroupDb) : GroupOp → Option (GroupOutcome × GroupDb)
  | .create parentId => create parentId db
  | .move id newParentId => move id newParentId db
  | .delete id => some (delete id db)

/-! ## Correctness -/

/-- The parents form a forest, and the closure holds the paths. -/
structure Correct (db : GroupDb) : Prop where
  acyclic : Acyclic db.parentOf
  closure : ∀ c, c ∈ db.closure.rows ↔
    db.Has c.descendantId ∧ Forest.up db.parentOf c.depth c.descendantId = some c.ancestorId

theorem correct_empty : Correct empty := by
  refine ⟨fun d n h => (nomatch h), fun c => iff_of_false List.not_mem_nil ?_⟩
  rintro ⟨⟨q, hq, -⟩, -⟩
  exact absurd hq List.not_mem_nil

/-- The path is in the closure. -/
def link (db : GroupDb) (a d n : Nat) : Prop := ⟨a, d, n⟩ ∈ db.closure.rows

theorem Correct.pathTable {db : GroupDb} (h : Correct db) : PathTable db.Has db.parentOf db.link :=
  ⟨h.acyclic, fun _ _ he => has_of_parent he, fun a d n => h.closure ⟨a, d, n⟩⟩

theorem correct_of_pathTable {db : GroupDb} (h : PathTable db.Has db.parentOf db.link) : Correct db :=
  ⟨h.acyclic, fun c => h.link c.ancestorId c.descendantId c.depth⟩

/-! ## What each statement reads and writes -/

section statements
variable {db db' : GroupDb} {id p : Nat} {a d n : Nat} {parentId : Option Nat} {links : List Closure}

theorem has_of_link (h : db.link a d n) : db.Has a ∧ db.Has d := db.closure_fk _ h

theorem has_iff_find {k : Nat} : db.Has k ↔ db.groups.find k ≠ none := by
  rw [Ne, Option.eq_none_iff_forall_ne_some, not_forall]
  simp only [not_not, Table.find_eq_some]
  exact Iff.rfl

theorem parentOf_of_not_has (h : ¬ db.Has d) : db.parentOf d = none := by
  cases hp : db.parentOf d with
  | none => rfl
  | some e => exact absurd (has_of_parent hp).1 h

theorem eq_of_groups (h : db'.groups = db.groups) : db'.Has = db.Has ∧ db'.parentOf = db.parentOf := by
  constructor
  · funext k
    rw [Has, h]
    rfl
  · funext k
    rw [parentOf, h]
    rfl

theorem mem_subtreeIds : d ∈ db.subtreeIds id ↔ ∃ n, db.link id d n := by
  rw [subtreeIds, List.mem_map]
  constructor
  · rintro ⟨⟨a, d, n⟩, hc, rfl⟩
    obtain ⟨hmem, hanc⟩ := List.mem_filter.mp hc
    obtain rfl := of_decide_eq_true hanc
    exact ⟨n, hmem⟩
  · rintro ⟨n, hn⟩
    exact ⟨⟨id, d, n⟩, List.mem_filter.mpr ⟨hn, decide_eq_true rfl⟩, rfl⟩

theorem isDescendant_iff : db.isDescendant id p = true ↔ ∃ n, db.link id p n := by
  rw [isDescendant, List.any_eq_true]
  constructor
  · rintro ⟨⟨a, d, n⟩, hc, hpair⟩
    rw [Bool.and_eq_true, decide_eq_true_eq, decide_eq_true_eq] at hpair
    obtain ⟨rfl, rfl⟩ := hpair
    exact ⟨n, hc⟩
  · rintro ⟨n, hn⟩
    exact ⟨⟨id, p, n⟩, hn, by simp⟩

theorem mem_pathsFrom : ⟨a, d, n⟩ ∈ db.pathsFrom id p ↔ d = id ∧ ∃ m, db.link a p m ∧ n = m + 1 := by
  rw [pathsFrom, List.mem_map]
  constructor
  · rintro ⟨⟨a', p', m⟩, hgc, heq⟩
    obtain ⟨hmem, hdesc⟩ := List.mem_filter.mp hgc
    obtain rfl := of_decide_eq_true hdesc
    obtain ⟨rfl, rfl, rfl⟩ := (Closure.mk.injEq _ _ _ _ _ _).mp heq
    exact ⟨rfl, m, hmem, rfl⟩
  · rintro ⟨rfl, m, hm, rfl⟩
    exact ⟨⟨a, p, m⟩, List.mem_filter.mpr ⟨hm, decide_eq_true rfl⟩, rfl⟩

theorem mem_crossLinks : ⟨a, d, n⟩ ∈ db.crossLinks id p ↔
    ∃ m k, db.link a p m ∧ db.link id d k ∧ n = m + k + 1 := by
  rw [crossLinks, List.mem_flatMap]
  constructor
  · rintro ⟨⟨a', p', m⟩, hp, hc⟩
    obtain ⟨⟨id', d', k⟩, hs, heq⟩ := List.mem_map.mp hc
    rw [List.mem_filter, decide_eq_true_eq] at hp hs
    obtain ⟨hp, rfl⟩ := hp
    obtain ⟨hs, rfl⟩ := hs
    obtain ⟨rfl, rfl, rfl⟩ := (Closure.mk.injEq _ _ _ _ _ _).mp heq
    exact ⟨m, k, hp, hs, rfl⟩
  · rintro ⟨m, k, hm, hk, rfl⟩
    exact ⟨⟨a, p, m⟩, List.mem_filter.mpr ⟨hm, decide_eq_true rfl⟩,
      List.mem_map.mpr ⟨⟨id, d, k⟩, List.mem_filter.mpr ⟨hk, decide_eq_true rfl⟩, rfl⟩⟩

theorem insertGroup_spec (h : db.insertGroup parentId = some (id, db')) :
    id = db.groups.seq ∧ db'.groups.seq = db.groups.seq + 1 ∧ (∀ p, parentId = some p → db.Has p) ∧
      db'.closure = db.closure ∧
        ∀ k, db'.groups.find k = if k = id then some ⟨id, parentId⟩ else db.groups.find k := by
  rw [insertGroup] at h
  split at h
  · rename_i hp
    obtain ⟨rfl, rfl⟩ := Prod.mk.inj (Option.some.inj h)
    exact ⟨rfl, rfl, hp, rfl, fun k => Table.find_insert⟩
  · contradiction

theorem parentOf_insertGroup (h : db.insertGroup parentId = some (id, db')) :
    ¬ db.Has id ∧ db'.parentOf = Function.update db.parentOf id parentId ∧
      ∀ k, db'.Has k ↔ k = id ∨ db.Has k := by
  obtain ⟨rfl, -, -, -, hfind⟩ := insertGroup_spec h
  refine ⟨?_, ?_, fun k => ?_⟩
  · rintro ⟨q, hq, hid⟩
    have := db.groups.bounds q hq
    omega
  · funext k
    rw [parentOf, hfind]
    by_cases hk : k = db.groups.seq
    · rw [if_pos hk, hk, Function.update_self]
      rfl
    · rw [if_neg hk, Function.update_of_ne hk]
      rfl
  · rw [has_iff_find, hfind, has_iff_find]
    split
    · rename_i hk
      exact iff_of_true nofun (.inl hk)
    · rename_i hk
      exact ⟨.inr, fun hmem => hmem.resolve_left hk⟩

theorem insertLinks_spec (h : db.insertLinks links = some db') :
    db'.groups = db.groups ∧ ∀ a d n, db'.link a d n ↔ db.link a d n ∨ ⟨a, d, n⟩ ∈ links := by
  rw [insertLinks] at h
  split at h
  · split at h
    · rename_i closure hinsert
      rw [← Option.some.inj h]
      exact ⟨rfl, fun a d n => Keyed.mem_insertAll hinsert⟩
    · contradiction
  · contradiction

theorem link_insertSelf (h : db.insertLinks [⟨id, id, 0⟩] = some db') :
    db'.link a d n ↔ db.link a d n ∨ a = id ∧ d = id ∧ n = 0 := by
  rw [(insertLinks_spec h).2, List.mem_singleton, Closure.mk.injEq]

theorem link_insertPaths (h : db.insertLinks (db.pathsFrom id p) = some db') :
    db'.link a d n ↔ db.link a d n ∨ d = id ∧ ∃ m, db.link a p m ∧ n = m + 1 := by
  rw [(insertLinks_spec h).2, mem_pathsFrom]

theorem link_insertCross (h : db.insertLinks (db.crossLinks id p) = some db') :
    db'.link a d n ↔ db.link a d n ∨ ∃ m k, db.link a p m ∧ db.link id d k ∧ n = m + k + 1 := by
  rw [(insertLinks_spec h).2, mem_crossLinks]

theorem link_removeOutside {descIds : List Nat} : (db.removeOutside descIds).link a d n ↔
    db.link a d n ∧ (d ∈ descIds → a ∈ descIds) := by
  show _ ∈ (db.closure.delete _).rows ↔ _
  rw [Keyed.mem_delete, decide_eq_false_iff_not, not_and, not_not]
  exact Iff.rfl

theorem setParent_spec (h : db.setParent id parentId = some db') :
    (db.Has id → ∀ p, parentId = some p → db.Has p) ∧ db'.closure = db.closure ∧
      db'.groups.seq = db.groups.seq ∧ (∀ k, db'.Has k ↔ db.Has k) ∧
        (∀ k, k ≠ id → db'.parentOf k = db.parentOf k) ∧ (db.Has id → db'.parentOf id = parentId) := by
  rw [setParent] at h
  split at h
  · rename_i hp
    rw [← Option.some.inj h]
    have hfind : ∀ k, (db.groups.update (fun r => r.id = id) (fun r => { r with parentId := parentId })
        fun _ => rfl).find k = (db.groups.find k).map fun r =>
          if r.id = id then { r with parentId := parentId } else r := by
      intro k
      simp only [Table.find_update, decide_eq_true_eq]
    refine ⟨hp, rfl, rfl, fun k => ?_, fun k hk => ?_, fun hid => ?_⟩
    · rw [has_iff_find, has_iff_find, hfind, Ne, Option.map_eq_none_iff]
    · rw [parentOf, parentOf, hfind]
      cases hrow : db.groups.find k with
      | none => rfl
      | some r =>
        rw [Option.map_some, if_neg]
        rw [(Table.find_eq_some.mp hrow).2]
        exact hk
    · obtain ⟨r, hr, hrid⟩ := hid
      rw [parentOf, hfind, Table.find_eq_some.mpr ⟨hr, hrid⟩, Option.map_some, if_pos hrid]
      rfl
  · contradiction

theorem parentOf_setParent (h : db.setParent id parentId = some db') (hid : db.Has id) :
    db'.parentOf = Function.update db.parentOf id parentId := by
  obtain ⟨-, -, -, -, hother, hself⟩ := setParent_spec h
  funext k
  by_cases hk : k = id
  · rw [hk, Function.update_self]
    exact hself hid
  · rw [Function.update_of_ne hk]
    exact hother k hk

theorem isBelow_of_parent {e : Nat} (hparent : db.parentOf d = some e) (he : db.isBelow id e = true) :
    db.isBelow id d = true := by
  rw [isBelow_iff] at he ⊢
  obtain ⟨n, hn⟩ := he
  exact ⟨n + 1, by rw [up_succ_of_parent hparent, hn]⟩

theorem parentOf_deleteGroup :
    (db.deleteGroup id).parentOf = prune (fun d => db.isBelow id d = true) db.parentOf := by
  funext d
  rw [parentOf, deleteGroup, Table.find_delete, prune, parentOf]
  cases hrow : db.groups.find d with
  | none => exact (ite_self _).symm
  | some r =>
    rw [Option.filter_some, (Table.find_eq_some.mp hrow).2]
    cases db.isBelow id d with
    | false => rfl
    | true => rfl

theorem has_deleteGroup {k : Nat} : (db.deleteGroup id).Has k ↔ db.Has k ∧ ¬ db.isBelow id k = true := by
  rw [Bool.not_eq_true]
  constructor
  · rintro ⟨q, hq, rfl⟩
    exact ⟨⟨q, (Table.mem_delete.mp hq).1, rfl⟩, (Table.mem_delete.mp hq).2⟩
  · rintro ⟨⟨q, hq, rfl⟩, hk⟩
    exact ⟨q, Table.mem_delete.mpr ⟨hq, hk⟩, rfl⟩

theorem link_deleteGroup : (db.deleteGroup id).link a d n ↔
    db.link a d n ∧ ¬ db.isBelow id a = true ∧ ¬ db.isBelow id d = true := by
  show _ ∈ (db.closure.delete _).rows ↔ _
  rw [Keyed.mem_delete, Bool.or_eq_false_iff, Bool.not_eq_true, Bool.not_eq_true]
  exact Iff.rfl

end statements

/-! ## Operations keep the closure -/

section operations
variable {db db' : GroupDb} {id : Nat} {parentId newParentId : Option Nat} {outcome : GroupOutcome}

theorem correct_linkGroup {db1 : GroupDb} (h : Correct db) (hinsert : db.insertGroup parentId = some (id, db1))
    (hlink : linkGroup id parentId db1 = some db') : Correct db' := by
  obtain ⟨-, -, hparents, hclosure, -⟩ := insertGroup_spec hinsert
  obtain ⟨hfresh, hparent, hhas⟩ := parentOf_insertGroup hinsert
  obtain ⟨db2, hself, hpaths⟩ := Option.bind_eq_some_iff.mp hlink
  have hsame : ∀ a d n, db1.link a d n ↔ db.link a d n := by
    intro a d n
    rw [link, hclosure]
    rfl
  have hself2 : ∀ a d n, db2.link a d n ↔ db.link a d n ∨ a = id ∧ d = id ∧ n = 0 := by
    intro a d n
    rw [link_insertSelf hself, hsame]
  have hroot := h.pathTable.addRoot hfresh hself2
  obtain ⟨hhas2, hparent2⟩ := eq_of_groups (insertLinks_spec hself).1
  have hnode : db1.Has = fun d => d = id ∨ db.Has d := funext fun k => propext (hhas k)
  have hnone : db.parentOf id = none := parentOf_of_not_has hfresh
  unfold copyPaths at hpaths
  split at hpaths
  · rename_i p
    have hp := hparents p rfl
    split at hpaths
    · rename_i hzero
      obtain ⟨r, hr, hid⟩ := hp
      have := db.groups.bounds r hr
      omega
    · have hne : p ≠ id := fun heq => hfresh (heq ▸ hp)
      have hleaf : ∀ d n, db2.link id d n → d = id := by
        intro d n hd
        rw [hself2] at hd
        rcases hd with hd | hd
        · exact absurd (has_of_link hd).1 hfresh
        · exact hd.2.1
      have hpath := hroot.joinLeaf hnone (.inl rfl) (.inr hp) hne hleaf fun a d n => link_insertPaths hpaths
      obtain ⟨hhas3, hparent3⟩ := eq_of_groups (insertLinks_spec hpaths).1
      refine correct_of_pathTable ?_
      rw [hhas3, hparent3, hhas2, hparent2, hparent, hnode]
      exact hpath
  · obtain rfl := Option.some.inj hpaths
    refine correct_of_pathTable ?_
    rw [hhas2, hparent2, hparent, hnode, ← hnone, Function.update_eq_self]
    exact hroot

theorem correct_create (h : Correct db) (hcreate : create parentId db = some (outcome, db')) : Correct db' := by
  obtain ⟨⟨id, db1⟩, hinsert, hcreate⟩ := Option.bind_eq_some_iff.mp hcreate
  obtain ⟨db2, hlink, heq⟩ := Option.map_eq_some_iff.mp hcreate
  rw [← (Prod.mk.inj heq).2]
  exact correct_linkGroup h hinsert hlink

theorem pathTable_removeOutside {node : Nat → Prop} {parent : Nat → Option Nat} {descIds : List Nat}
    (h : PathTable node parent db.link) (hsubtree : ∀ d, node d → (d ∈ descIds ↔ d ∈ db.subtreeIds id)) :
    PathTable node (Function.update parent id none) (db.removeOutside descIds).link := by
  have hbelow : ∀ d, node d → (d ∈ descIds ↔ Below parent id d) := by
    intro d hd
    rw [hsubtree d hd, mem_subtreeIds, h.exists_link]
    exact and_iff_right hd
  refine h.cut fun a d n => ?_
  rw [link_removeOutside]
  refine and_congr_right fun hlink => ?_
  obtain ⟨hd, hup⟩ := (h.link a d n).mp hlink
  rw [hbelow d hd, hbelow a (h.node_of_up hd hup)]

theorem correct_relink (h : Correct db) (hid : db.Has id)
    (hcheck : ∀ p, newParentId = some p → db.isDescendant id p = false)
    (hrelink : relink id newParentId db = some db') : Correct db' := by
  have hcut : PathTable db.Has (Function.update db.parentOf id none) (db.removeOutside (db.subtreeIds id)).link :=
    pathTable_removeOutside h.pathTable fun d _ => Iff.rfl
  unfold relink reconnect at hrelink
  split at hrelink
  · rename_i p
    obtain ⟨db1, hinsert, hset⟩ := Option.bind_eq_some_iff.mp hrelink
    obtain ⟨hhas1, hparent1⟩ := eq_of_groups (insertLinks_spec hinsert).1
    have hid1 : db1.Has id := hhas1 ▸ hid
    obtain ⟨hexists, hclosure, -, hhas, -⟩ := setParent_spec hset
    have hp : db.Has p := by
      have hp1 := hexists hid1 p rfl
      rw [hhas1] at hp1
      exact hp1
    have hbelow : ¬ Below (Function.update db.parentOf id none) id p := by
      intro hbelow
      obtain ⟨n, hn⟩ := hcut.exists_link.mpr ⟨hp, hbelow⟩
      have hdesc := isDescendant_iff.mpr ⟨n, (link_removeOutside.mp hn).1⟩
      rw [hcheck p rfl] at hdesc
      contradiction
    have hjoin := hcut.join (Function.update_self ..) hid hp hbelow fun a d n => link_insertCross hinsert
    rw [Function.update_idem] at hjoin
    refine correct_of_pathTable ?_
    have hlink : db'.link = db1.link := by
      funext a d n
      rw [link, hclosure]
      rfl
    have hnode : db'.Has = db.Has := (funext fun k => propext (hhas k)).trans hhas1
    rw [hnode, parentOf_setParent hset hid1, hparent1, hlink]
    exact hjoin
  · obtain ⟨-, hclosure, -, hhas, -⟩ := setParent_spec hrelink
    refine correct_of_pathTable ?_
    have hlink : db'.link = (db.removeOutside (db.subtreeIds id)).link := by
      funext a d n
      rw [link, hclosure]
      rfl
    have hnode : db'.Has = db.Has := funext fun k => propext (hhas k)
    rw [hnode, parentOf_setParent hrelink hid, hlink]
    exact hcut

theorem correct_move (h : Correct db) (hmove : move id newParentId db = some (outcome, db')) : Correct db' := by
  rw [move] at hmove
  split at hmove
  · rw [← (Prod.mk.inj (Option.some.inj hmove)).2]
    exact h
  · rename_i hid
    rw [not_not] at hid
    split at hmove
    · rw [← (Prod.mk.inj (Option.some.inj hmove)).2]
      exact h
    · rename_i hcheck
      obtain ⟨db1, hrelink, heq⟩ := Option.map_eq_some_iff.mp hmove
      rw [← (Prod.mk.inj heq).2]
      refine correct_relink h hid (fun p hp => ?_) hrelink
      rw [hp, Option.any_some, Bool.not_eq_true] at hcheck
      exact hcheck

theorem correct_deleteGroup (h : Correct db) (id : Nat) : Correct (db.deleteGroup id) := by
  have hgone : ∀ d e, db.parentOf d = some e → db.isBelow id e = true → db.isBelow id d = true :=
    fun d e => isBelow_of_parent
  have hpath := h.pathTable.remove hgone fun a d n => link_deleteGroup
  refine correct_of_pathTable ?_
  have hnode : (db.deleteGroup id).Has = fun d => db.Has d ∧ ¬ db.isBelow id d = true :=
    funext fun k => propext has_deleteGroup
  rw [hnode, parentOf_deleteGroup]
  exact hpath

end operations

theorem correct_perform {db db' : GroupDb} {op : GroupOp} {outcome : GroupOutcome} (h : Correct db)
    (hop : db.perform op = some (outcome, db')) : Correct db' := by
  cases op with
  | create parentId => exact correct_create h hop
  | move id newParentId => exact correct_move h hop
  | delete id =>
    rw [← (Prod.mk.inj (Option.some.inj hop)).2]
    exact correct_deleteGroup h id

end GroupDb

/-- Completed operations, one after the other. -/
def groupStep (db : GroupDb) (op : GroupOp) : Option GroupDb := (db.perform op).map Prod.snd

theorem correct_of_run {ops : List GroupOp} {db : GroupDb} (h : run groupStep GroupDb.empty ops = some db) :
    db.Correct := by
  refine run_preserves (fun db op db' hdb hstep => ?_) GroupDb.correct_empty h
  obtain ⟨⟨outcome, db''⟩, hop, rfl⟩ := Option.map_eq_some_iff.mp hstep
  exact GroupDb.correct_perform hdb hop

/-- The database after completed operations. -/
def groupsAfter (ops : List GroupOp) : GroupDb := (run groupStep GroupDb.empty ops).getD GroupDb.empty

theorem correct_groupsAfter (ops : List GroupOp) : (groupsAfter ops).Correct := by
  rw [groupsAfter]
  cases h : run groupStep GroupDb.empty ops with
  | none => exact GroupDb.correct_empty
  | some db => exact correct_of_run h

/-- After every sequence of completed operations no group is its own ancestor, and the closure has exactly one row
for each pair of a group and an ancestor, with the number of parent steps between them. -/
theorem closure_correct (ops : List GroupOp) (db : GroupDb) (h : run groupStep GroupDb.empty ops = some db) :
    Acyclic db.parentOf ∧ (db.closure.rows.map Closure.pair).Nodup ∧
      ∀ a d n, ⟨a, d, n⟩ ∈ db.closure.rows ↔ db.Has d ∧ Forest.up db.parentOf n d = some a := by
  have hcorrect := correct_of_run h
  exact ⟨hcorrect.acyclic, db.closure.nodup, fun a d n => hcorrect.closure ⟨a, d, n⟩⟩

/-- Three groups, of which the last is moved under the second, which may then not move under it and is deleted. -/
def groupSession : List GroupOp :=
  [.create none, .create (some 1), .create (some 1), .move 3 (some 2), .move 2 (some 3), .create (some 3), .delete 3]

theorem groupSession_correct : ∃ db, run groupStep GroupDb.empty groupSession = some db ∧
    db.closure.rows = [⟨1, 1, 0⟩, ⟨2, 2, 0⟩, ⟨1, 2, 1⟩] ∧
      ∀ a d n, ⟨a, d, n⟩ ∈ db.closure.rows ↔ db.Has d ∧ Forest.up db.parentOf n d = some a := by
  have hrun : (run groupStep GroupDb.empty groupSession).map (·.closure.rows) =
      some [⟨1, 1, 0⟩, ⟨2, 2, 0⟩, ⟨1, 2, 1⟩] := by decide +kernel
  obtain ⟨db, h, hrows⟩ := Option.map_eq_some_iff.mp hrun
  exact ⟨db, h, hrows, (closure_correct groupSession db h).2.2⟩

end Obliguard.Server

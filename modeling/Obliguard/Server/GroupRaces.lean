import Mathlib.Data.Fintype.Basic
import Obliguard.Server.GroupService

/-!
# Group operations beside each other

`create`, `move` and `delete` of `server/src/services/group.service.ts`, any number of them at a time, each
statement on its own: none of them runs in a transaction, and `move` relies on what it has read before its first
write. A step is a statement of one operation, or a database error that ends the operation.

While an operation writes the links of a group, the closure holds the paths of another forest than the parents'
(`RaceInv`); the two agree again when it has ended. `interleaved_correct` is about the runs in which no step finds
what it relies on changed.
-/

namespace Obliguard.Server

open Forest Runs

/-- An operation, before its next statement. -/
inductive GroupTask
  | inserting (parentId : Option Nat)
  | linkingSelf (id : Nat) (parentId : Option Nat)
  | copyingPaths (id parentId : Nat)
  | selecting (id : Nat) (newParentId : Option Nat)
  | checking (id newParentId : Nat)
  | selectingSubtree (id : Nat) (newParentId : Option Nat)
  | removingOutside (id : Nat) (newParentId : Option Nat) (descIds : List Nat)
  | reconnecting (id newParentId : Nat)
  | settingParent (id : Nat) (newParentId : Option Nat)
  | pluckingSubtree (id : Nat)
  | deleting (id : Nat)
  /-- `none` after a database error. -/
  | ended (outcome : Option GroupOutcome)
deriving DecidableEq

def GroupOp.task : GroupOp → GroupTask
  | .create parentId => .inserting parentId
  | .move id newParentId => .selecting id newParentId
  | .delete id => .pluckingSubtree id

namespace GroupTask

/-- `create` after the self-reference: `if (data.parentId)`. -/
def linked (id : Nat) : Option Nat → GroupTask
  | some p => if p = 0 then .ended (some (.group id)) else .copyingPaths id p
  | none => .ended (some (.group id))

/-- `move` after the group is found. -/
def found (id : Nat) : Option Nat → GroupTask
  | some p => .checking id p
  | none => .selectingSubtree id none

/-- `move` after the outside links are gone. -/
def removed (id : Nat) : Option Nat → GroupTask
  | some p => .reconnecting id p
  | none => .settingParent id none

/-- The next statement; `none` where it fails. -/
def advance (db : GroupDb) : GroupTask → Option (GroupTask × GroupDb)
  | inserting parentId => (db.insertGroup parentId).map fun r => (linkingSelf r.1 parentId, r.2)
  | linkingSelf id parentId => (db.insertLinks [⟨id, id, 0⟩]).map fun db => (linked id parentId, db)
  | copyingPaths id parentId =>
    (db.insertLinks (db.pathsFrom id parentId)).map fun db => (ended (some (.group id)), db)
  | selecting id newParentId =>
    some (if db.Has id then found id newParentId else ended (some .notFound), db)
  | checking id newParentId =>
    some (if db.isDescendant id newParentId then ended (some .circular)
      else selectingSubtree id (some newParentId), db)
  | selectingSubtree id newParentId => some (removingOutside id newParentId (db.subtreeIds id), db)
  | removingOutside id newParentId descIds => some (removed id newParentId, db.removeOutside descIds)
  | reconnecting id newParentId =>
    (db.insertLinks (db.crossLinks id newParentId)).map fun db => (settingParent id (some newParentId), db)
  | settingParent id newParentId => (db.setParent id newParentId).map fun db' =>
    (ended (some (if db.Has id then .group id else .notFound)), db')
  | pluckingSubtree id => some (deleting id, db)
  | deleting id => some (ended (some (.deleted (decide (db.Has id)))), db.deleteGroup id)
  | ended _ => none

/-- The group whose links the operation has begun to write. -/
def writing : GroupTask → Option Nat
  | linkingSelf id _ => some id
  | copyingPaths id _ => some id
  | reconnecting id _ => some id
  | settingParent id _ => some id
  | _ => none

end GroupTask

structure GroupRace (ι : Type) where
  db : GroupDb
  tasks : ι → GroupTask

inductive RaceAction (ι : Type)
  | next (i : ι)
  | error (i : ι)
deriving DecidableEq

variable {ι : Type}

def raceStep [DecidableEq ι] (s : GroupRace ι) : RaceAction ι → Option (GroupRace ι)
  | .next i => ((s.tasks i).advance s.db).map fun r => ⟨r.2, Function.update s.tasks i r.1⟩
  | .error i => match s.tasks i with
    | .ended _ => none
    | _ => some { s with tasks := Function.update s.tasks i (.ended none) }

def GroupRace.start (db : GroupDb) (ops : ι → GroupOp) : GroupRace ι := ⟨db, fun i => (ops i).task⟩

/-! ## An operation alone -/

namespace GroupTask

/-- What `move` answers: the updated row, if there is one. -/
def moved (db : GroupDb) (id : Nat) : GroupOutcome := if db.Has id then .group id else .notFound

/-- The rest of an operation that nothing disturbs. -/
def rest (db : GroupDb) : GroupTask → Option (GroupOutcome × GroupDb)
  | inserting parentId => db.create parentId
  | linkingSelf id parentId => (db.linkGroup id parentId).map fun db => (.group id, db)
  | copyingPaths id parentId => (db.insertLinks (db.pathsFrom id parentId)).map fun db => (.group id, db)
  | selecting id newParentId => db.move id newParentId
  | checking id newParentId =>
    if db.isDescendant id newParentId then some (.circular, db)
    else (db.relink id (some newParentId)).map fun db' => (moved db id, db')
  | selectingSubtree id newParentId => (db.relink id newParentId).map fun db' => (moved db id, db')
  | removingOutside id newParentId descIds =>
    ((db.removeOutside descIds).reconnect id newParentId).map fun db' => (moved db id, db')
  | reconnecting id newParentId =>
    (db.reconnect id (some newParentId)).map fun db' => (moved db id, db')
  | settingParent id newParentId => (db.setParent id newParentId).map fun db' => (moved db id, db')
  | pluckingSubtree id => some (db.delete id)
  | deleting id => some (db.delete id)
  | ended outcome => outcome.map fun outcome => (outcome, db)

theorem rest_task (db : GroupDb) (op : GroupOp) : rest db op.task = db.perform op := by
  cases op with
  | create parentId => rfl
  | move id newParentId => rfl
  | delete id => rfl

theorem moved_of_groups {db db' : GroupDb} {id : Nat} (h : db'.groups = db.groups) : moved db' id = moved db id := by
  have hhas := congrFun (GroupDb.eq_of_groups h).1 id
  by_cases hid : db.Has id
  · rw [moved, moved, if_pos hid, if_pos (hhas ▸ hid)]
  · rw [moved, moved, if_neg hid, if_neg (hhas ▸ hid)]

theorem rest_advance {db db' : GroupDb} {t t' : GroupTask} (h : advance db t = some (t', db')) :
    rest db t = rest db' t' := by
  cases t with
  | inserting parentId =>
    obtain ⟨r, hinsert, heq⟩ := Option.map_eq_some_iff.mp h
    obtain ⟨rfl, rfl⟩ := Prod.mk.inj heq
    rw [rest, rest, GroupDb.create, hinsert, Option.bind_some]
  | linkingSelf id parentId =>
    obtain ⟨db1, hinsert, heq⟩ := Option.map_eq_some_iff.mp h
    obtain ⟨rfl, rfl⟩ := Prod.mk.inj heq
    rw [rest, GroupDb.linkGroup, hinsert, Option.bind_some]
    cases parentId with
    | none => rfl
    | some p =>
      rw [linked, GroupDb.copyPaths]
      split
      · rfl
      · rfl
  | copyingPaths id parentId =>
    obtain ⟨db1, hinsert, heq⟩ := Option.map_eq_some_iff.mp h
    obtain ⟨rfl, rfl⟩ := Prod.mk.inj heq
    rw [rest, hinsert]
    rfl
  | selecting id newParentId =>
    obtain ⟨rfl, rfl⟩ := Prod.mk.inj (Option.some.inj h)
    rw [rest, GroupDb.move]
    by_cases hid : db.Has id
    · rw [if_neg (not_not.mpr hid), if_pos hid]
      cases newParentId with
      | none => rw [found, rest, moved, if_pos hid, Option.any_none, if_neg Bool.false_ne_true]
      | some p => rw [found, rest, moved, if_pos hid, Option.any_some]
    · rw [if_pos hid, if_neg hid]
      rfl
  | checking id newParentId =>
    obtain ⟨rfl, rfl⟩ := Prod.mk.inj (Option.some.inj h)
    rw [rest]
    split
    · rfl
    · rfl
  | selectingSubtree id newParentId =>
    obtain ⟨rfl, rfl⟩ := Prod.mk.inj (Option.some.inj h)
    rfl
  | removingOutside id newParentId descIds =>
    obtain ⟨rfl, rfl⟩ := Prod.mk.inj (Option.some.inj h)
    have hmoved : moved (db.removeOutside descIds) id = moved db id := moved_of_groups rfl
    cases newParentId with
    | none => rw [removed, rest, rest, hmoved, GroupDb.reconnect]
    | some p => rw [removed, rest, rest, hmoved]
  | reconnecting id newParentId =>
    obtain ⟨db1, hinsert, heq⟩ := Option.map_eq_some_iff.mp h
    obtain ⟨rfl, rfl⟩ := Prod.mk.inj heq
    rw [rest, rest, GroupDb.reconnect, hinsert, Option.bind_some,
      moved_of_groups (GroupDb.insertLinks_spec hinsert).1]
  | settingParent id newParentId =>
    obtain ⟨db1, hset, heq⟩ := Option.map_eq_some_iff.mp h
    obtain ⟨rfl, rfl⟩ := Prod.mk.inj heq
    rw [rest, hset]
    rfl
  | pluckingSubtree id =>
    obtain ⟨rfl, rfl⟩ := Prod.mk.inj (Option.some.inj h)
    rfl
  | deleting id =>
    obtain ⟨rfl, rfl⟩ := Prod.mk.inj (Option.some.inj h)
    rfl
  | ended outcome => contradiction

end GroupTask

/-- An operation that runs to its end with no other one beside it is performed. -/
theorem perform_of_alone [DecidableEq ι] {db : GroupDb} {ops : ι → GroupOp} {i : ι} {actions : List (RaceAction ι)}
    {s : GroupRace ι} {outcome : GroupOutcome} (halone : ∀ a ∈ actions, a = .next i)
    (hrun : run raceStep (.start db ops) actions = some s) (hended : s.tasks i = .ended (some outcome)) :
    db.perform (ops i) = some (outcome, s.db) := by
  have hrest : ∀ s : GroupRace ι, ∀ a s', (s.tasks i).rest s.db = db.perform (ops i) → a = .next i →
      raceStep s a = some s' → (s'.tasks i).rest s'.db = db.perform (ops i) := by
    rintro s a s' h rfl hstep
    obtain ⟨⟨t', db'⟩, hadvance, rfl⟩ := Option.map_eq_some_iff.mp hstep
    dsimp only
    rw [← h, GroupTask.rest_advance hadvance, Function.update_self]
  have hmeets : StepsMeet raceStep (fun _ a => a = .next i) (.start db ops) actions :=
    stepsMeet_of_mem fun a ha _ => halone a ha
  have h : (s.tasks i).rest s.db = db.perform (ops i) :=
    run_invariant (P := fun s => (s.tasks i).rest s.db = db.perform (ops i)) hrest (GroupTask.rest_task db (ops i))
      hmeets hrun
  rw [hended] at h
  exact h.symm

/-! ## The closure while operations run -/

namespace GroupTask

/-- What holds of a group while its links are written: it is missing from the forest of the closure, a root of it,
or hung under its new parent. -/
def Holds (node : Nat → Prop) (parent : Nat → Option Nat) (db : GroupDb) : GroupTask → Prop
  | linkingSelf id parentId =>
    id < db.groups.seq ∧ ¬ node id ∧ parentId ≠ some id ∧ (db.Has id → db.parentOf id = parentId)
  | copyingPaths id parentId => id < db.groups.seq ∧ (db.Has id → node id) ∧ parent id = none ∧ parentId ≠ id ∧
    (db.Has id → db.parentOf id = some parentId)
  | checking id _ => id < db.groups.seq
  | selectingSubtree id _ => id < db.groups.seq
  | removingOutside id _ _ => id < db.groups.seq
  | reconnecting id _ => id < db.groups.seq ∧ (db.Has id → node id) ∧ parent id = none
  | settingParent id newParentId => id < db.groups.seq ∧ (db.Has id → node id ∧ parent id = newParentId)
  | _ => True

variable {node node' : Nat → Prop} {parent parent' : Nat → Option Nat} {db db' : GroupDb} {t : GroupTask}

theorem Holds.frame (h : Holds node parent db t) (hseq : db.groups.seq ≤ db'.groups.seq)
    (hframe : ∀ d, t.writing = some d → (node' d ↔ node d) ∧ parent' d = parent d ∧
      (db'.Has d ↔ db.Has d) ∧ db'.parentOf d = db.parentOf d) : Holds node' parent' db' t := by
  cases t with
  | linkingSelf id parentId =>
    obtain ⟨hlt, hnode, hne, hparent⟩ := h
    obtain ⟨hnode', -, hhas', hparent'⟩ := hframe id rfl
    exact ⟨Nat.lt_of_lt_of_le hlt hseq, fun hid => hnode (hnode'.mp hid), hne,
      fun hid => hparent'.trans (hparent (hhas'.mp hid))⟩
  | copyingPaths id parentId =>
    obtain ⟨hlt, hnode, hroot, hne, hparent⟩ := h
    obtain ⟨hnode', hroot', hhas', hparent'⟩ := hframe id rfl
    exact ⟨Nat.lt_of_lt_of_le hlt hseq, fun hid => hnode'.mpr (hnode (hhas'.mp hid)), hroot'.trans hroot, hne,
      fun hid => hparent'.trans (hparent (hhas'.mp hid))⟩
  | reconnecting id newParentId =>
    obtain ⟨hlt, hnode, hroot⟩ := h
    obtain ⟨hnode', hroot', hhas', -⟩ := hframe id rfl
    exact ⟨Nat.lt_of_lt_of_le hlt hseq, fun hid => hnode'.mpr (hnode (hhas'.mp hid)), hroot'.trans hroot⟩
  | settingParent id newParentId =>
    obtain ⟨hlt, hnode⟩ := h
    obtain ⟨hnode', hparent', hhas', -⟩ := hframe id rfl
    refine ⟨Nat.lt_of_lt_of_le hlt hseq, fun hid => ?_⟩
    exact (hnode (hhas'.mp hid)).imp hnode'.mpr hparent'.trans
  | checking id newParentId => exact Nat.lt_of_lt_of_le h hseq
  | selectingSubtree id newParentId => exact Nat.lt_of_lt_of_le h hseq
  | removingOutside id newParentId descIds => exact Nat.lt_of_lt_of_le h hseq
  | inserting parentId => trivial
  | selecting id newParentId => trivial
  | pluckingSubtree id => trivial
  | deleting id => trivial
  | ended outcome => trivial

/-- A deletion of groups. -/
theorem Holds.remove {gone : Nat} (h : Holds node parent db t) :
    Holds (fun d => node d ∧ ¬ db.isBelow gone d = true) (prune (fun d => db.isBelow gone d = true) parent)
      (db.deleteGroup gone) t := by
  have hparent : ∀ {d e}, (db.Has d → db.parentOf d = e) → (db.deleteGroup gone).Has d →
      (db.deleteGroup gone).parentOf d = e := by
    intro d e hparent hid
    rw [GroupDb.has_deleteGroup] at hid
    rw [GroupDb.parentOf_deleteGroup, prune, if_neg hid.2]
    exact hparent hid.1
  have hnode : ∀ {d}, (db.Has d → node d) → (db.deleteGroup gone).Has d →
      node d ∧ ¬ db.isBelow gone d = true := by
    intro d hnode hid
    rw [GroupDb.has_deleteGroup] at hid
    exact ⟨hnode hid.1, hid.2⟩
  have hroot : ∀ {d}, parent d = none → prune (fun d => db.isBelow gone d = true) parent d = none := by
    intro d hroot
    rw [prune, hroot, ite_self]
  cases t with
  | linkingSelf id parentId => exact ⟨h.1, fun hn => h.2.1 hn.1, h.2.2.1, hparent h.2.2.2⟩
  | copyingPaths id parentId => exact ⟨h.1, hnode h.2.1, hroot h.2.2.1, h.2.2.2.1, hparent h.2.2.2.2⟩
  | reconnecting id newParentId => exact ⟨h.1, hnode h.2.1, hroot h.2.2⟩
  | settingParent id newParentId =>
    refine ⟨h.1, fun hid => ⟨hnode (fun hid => (h.2 hid).1) hid, ?_⟩⟩
    rw [GroupDb.has_deleteGroup] at hid
    rw [prune, if_neg hid.2]
    exact (h.2 hid.1).2
  | checking id newParentId => exact h
  | selectingSubtree id newParentId => exact h
  | removingOutside id newParentId descIds => exact h
  | inserting parentId => trivial
  | selecting id newParentId => trivial
  | pluckingSubtree id => trivial
  | deleting id => trivial
  | ended outcome => trivial

theorem Holds.lt_seq {d : Nat} (h : Holds node parent db t) (hd : t.writing = some d) : d < db.groups.seq := by
  cases t with
  | linkingSelf id parentId => exact Option.some.inj hd ▸ h.1
  | copyingPaths id parentId => exact Option.some.inj hd ▸ h.1
  | reconnecting id newParentId => exact Option.some.inj hd ▸ h.1
  | settingParent id newParentId => exact Option.some.inj hd ▸ h.1
  | _ => contradiction

end GroupTask

/-- The closure holds the paths of a forest that differs from the parents only in groups whose links are being
written, each by one operation. -/
structure RaceInv (node : Nat → Prop) (parent : Nat → Option Nat) (s : GroupRace ι) : Prop where
  paths : PathTable node parent s.db.link
  free : ∀ d, (∀ i, (s.tasks i).writing ≠ some d) → (node d ↔ s.db.Has d) ∧ parent d = s.db.parentOf d
  tasks : ∀ i, (s.tasks i).Holds node parent s.db
  alone : ∀ i j d, (s.tasks i).writing = some d → (s.tasks j).writing = some d → i = j

section inv
variable {node node' : Nat → Prop} {parent parent' : Nat → Option Nat} {s : GroupRace ι} {i : ι} {t : GroupTask}
  {db' : GroupDb}

theorem RaceInv.has_of_node (h : RaceInv node parent s) {d : Nat} (hd : node d) : s.db.Has d :=
  (GroupDb.has_of_link (h.paths.link_self.mpr hd)).1

theorem RaceInv.agree_of_not_has (h : RaceInv node parent s) {d : Nat} (hd : ¬ s.db.Has d) :
    (node d ↔ s.db.Has d) ∧ parent d = s.db.parentOf d := by
  have hnode : ¬ node d := fun hn => hd (h.has_of_node hn)
  exact ⟨iff_of_false hnode hd, (h.paths.parent_of_not_node hnode).trans (GroupDb.parentOf_of_not_has hd).symm⟩

theorem RaceInv.other {id : Nat} (h : RaceInv node parent s) (hi : (s.tasks i).writing = some id) :
    ∀ j, j ≠ i → (s.tasks j).writing ≠ some id := fun j hj hwriting => hj (h.alone j i id hwriting hi)

variable [DecidableEq ι]

theorem RaceInv.write {x : Nat} (h : RaceInv node parent s) (hold : ∀ d, (s.tasks i).writing = some d → d = x)
    (hnew : ∀ d, t.writing = some d → d = x) (hother : ∀ j, j ≠ i → (s.tasks j).writing ≠ some x)
    (hseq : s.db.groups.seq ≤ db'.groups.seq)
    (hframe : ∀ d, d ≠ x → (node' d ↔ node d) ∧ parent' d = parent d ∧ (db'.Has d ↔ s.db.Has d) ∧
      db'.parentOf d = s.db.parentOf d)
    (hpaths : PathTable node' parent' db'.link) (htask : t.Holds node' parent' db')
    (hfree : t.writing ≠ some x → (node' x ↔ db'.Has x) ∧ parent' x = db'.parentOf x) :
    RaceInv node' parent' ⟨db', Function.update s.tasks i t⟩ := by
  have hwriting : ∀ j, (Function.update s.tasks i t j).writing = if j = i then t.writing else (s.tasks j).writing := by
    intro j
    by_cases hj : j = i
    · rw [hj, Function.update_self, if_pos rfl]
    · rw [Function.update_of_ne hj, if_neg hj]
  refine ⟨hpaths, fun d hd => ?_, fun j => ?_, fun j k d hj hk => ?_⟩
  · by_cases hdx : d = x
    · have hi := hd i
      rw [hdx, hwriting, if_pos rfl] at hi
      rw [hdx]
      exact hfree hi
    · obtain ⟨hnode, hparent, hhas, hparentOf⟩ := hframe d hdx
      have hfree := h.free d fun j hj => by
        by_cases hji : j = i
        · exact hdx (hold d (hji ▸ hj))
        · have hdj := hd j
          rw [hwriting, if_neg hji] at hdj
          exact hdj hj
      dsimp only
      rw [hnode, hparent, hhas, hparentOf]
      exact hfree
  · by_cases hj : j = i
    · dsimp only
      rw [hj, Function.update_self]
      exact htask
    · dsimp only
      rw [Function.update_of_ne hj]
      refine (h.tasks j).frame hseq fun d hd => hframe d ?_
      rintro rfl
      exact hother j hj hd
  · dsimp only at hj hk
    rw [hwriting] at hj hk
    split at hj
    · rename_i hji
      split at hk
      · rename_i hki
        rw [hji, hki]
      · rename_i hki
        exact absurd (hnew d hj ▸ hk) (hother k hki)
    · rename_i hji
      split at hk
      · exact absurd (hnew d hk ▸ hj) (hother j hji)
      · exact h.alone j k d hj hk

theorem RaceInv.keep (h : RaceInv node parent s) (hnew : t.writing = none)
    (hfree : ∀ d, (s.tasks i).writing = some d → (node d ↔ s.db.Has d) ∧ parent d = s.db.parentOf d)
    (htask : t.Holds node parent s.db) : RaceInv node parent ⟨s.db, Function.update s.tasks i t⟩ := by
  have hwriting : ∀ j, (Function.update s.tasks i t j).writing = if j = i then none else (s.tasks j).writing := by
    intro j
    by_cases hj : j = i
    · rw [hj, Function.update_self, if_pos rfl, hnew]
    · rw [Function.update_of_ne hj, if_neg hj]
  refine ⟨h.paths, fun d hd => ?_, fun j => ?_, fun j k d hj hk => ?_⟩
  · by_cases hi : (s.tasks i).writing = some d
    · exact hfree d hi
    · refine h.free d fun j hj => ?_
      by_cases hji : j = i
      · exact hi (hji ▸ hj)
      · have hdj := hd j
        rw [hwriting, if_neg hji] at hdj
        exact hdj hj
  · by_cases hj : j = i
    · dsimp only
      rw [hj, Function.update_self]
      exact htask
    · dsimp only
      rw [Function.update_of_ne hj]
      exact h.tasks j
  · dsimp only at hj hk
    rw [hwriting] at hj hk
    split at hj
    · contradiction
    · split at hk
      · contradiction
      · exact h.alone j k d hj hk

/-! ## Steps that find what they rely on unchanged -/

namespace GroupTask

/-- A deletion would take the new parent of a move whose links are written, and leave the moved group. -/
def orphaned (db : GroupDb) (gone : Nat) : GroupTask → Bool
  | settingParent id (some p) => decide (db.Has id) && db.isBelow gone p && !db.isBelow gone id
  | _ => false

/-- Before its next statement, the operation finds what it relies on as it was. -/
def Finds (s : GroupRace ι) : GroupTask → Prop
  -- the parent has its own paths, and nothing has been linked below the new group
  | copyingPaths id parentId => s.db.Has id →
    s.db.isDescendant parentId parentId = true ∧ ∀ d ∈ s.db.subtreeIds id, d = id
  -- the subtree read is still the subtree, and no other operation writes the links of the group
  | removingOutside id _ descIds =>
    (∀ r ∈ s.db.groups.rows, r.id ∈ descIds ↔ r.id ∈ s.db.subtreeIds id) ∧ ∀ j, (s.tasks j).writing ≠ some id
  -- the new parent is there, and still not below the group
  | reconnecting id newParentId => s.db.Has id →
    s.db.isDescendant newParentId newParentId = true ∧ s.db.isDescendant id newParentId = false
  | deleting id => ∀ j, (s.tasks j).orphaned s.db id = false
  | _ => True

/-- An error strikes before the first write, or where the links written so far are those of the parent. -/
def Spared (db : GroupDb) : GroupTask → Prop
  | linkingSelf id _ => ¬ db.Has id
  | copyingPaths id _ => ¬ db.Has id
  | reconnecting id _ => db.Has id → db.parentOf id = none
  | settingParent id newParentId => db.Has id → db.parentOf id = newParentId
  | _ => True

instance [Fintype ι] (s : GroupRace ι) : ∀ t, Decidable (Finds s t)
  | copyingPaths .. => inferInstanceAs (Decidable (_ → _ ∧ _))
  | removingOutside .. => inferInstanceAs (Decidable (_ ∧ _))
  | reconnecting .. => inferInstanceAs (Decidable (_ → _ ∧ _))
  | deleting _ => inferInstanceAs (Decidable (∀ _, _))
  | inserting _ | linkingSelf .. | selecting .. | checking .. | selectingSubtree .. | settingParent ..
  | pluckingSubtree _ | ended _ => .isTrue trivial

instance (db : GroupDb) : ∀ t, Decidable (Spared db t)
  | linkingSelf .. => inferInstanceAs (Decidable (¬ _))
  | copyingPaths .. => inferInstanceAs (Decidable (¬ _))
  | reconnecting .. => inferInstanceAs (Decidable (_ → _))
  | settingParent .. => inferInstanceAs (Decidable (_ → _))
  | inserting _ | selecting .. | checking .. | selectingSubtree .. | removingOutside .. | pluckingSubtree _
  | deleting _ | ended _ => .isTrue trivial

end GroupTask

/-- The step finds what it relies on, and an error leaves no links half written. -/
def UndisturbedStep (s : GroupRace ι) : RaceAction ι → Prop
  | .next i => (s.tasks i).Finds s
  | .error i => (s.tasks i).Spared s.db

instance [Fintype ι] (s : GroupRace ι) : ∀ a, Decidable (UndisturbedStep s a)
  | .next i => inferInstanceAs (Decidable ((s.tasks i).Finds s))
  | .error i => inferInstanceAs (Decidable ((s.tasks i).Spared s.db))

theorem raceInv_error {s' : GroupRace ι} (h : RaceInv node parent s) (hok : UndisturbedStep s (.error i))
    (hstep : raceStep s (.error i) = some s') : RaceInv node parent s' := by
  have hagree : ∀ d, (s.tasks i).writing = some d → (node d ↔ s.db.Has d) ∧ parent d = s.db.parentOf d := by
    intro d hd
    by_cases hid : s.db.Has d
    · have hholds := h.tasks i
      rw [UndisturbedStep] at hok
      cases htask : s.tasks i with
      | linkingSelf id parentId =>
        rw [htask] at hok hd
        exact absurd hid (Option.some.inj hd ▸ hok)
      | copyingPaths id parentId =>
        rw [htask] at hok hd
        exact absurd hid (Option.some.inj hd ▸ hok)
      | reconnecting id newParentId =>
        rw [htask] at hok hd hholds
        obtain rfl := Option.some.inj hd
        exact ⟨iff_of_true (hholds.2.1 hid) hid, hholds.2.2.trans (hok hid).symm⟩
      | settingParent id newParentId =>
        rw [htask] at hok hd hholds
        obtain rfl := Option.some.inj hd
        exact ⟨iff_of_true (hholds.2 hid).1 hid, (hholds.2 hid).2.trans (hok hid).symm⟩
      | _ =>
        rw [htask] at hd
        contradiction
    · exact h.agree_of_not_has hid
  have hkeep := h.keep (t := .ended none) rfl hagree trivial
  rw [raceStep] at hstep
  split at hstep
  · contradiction
  · exact Option.some.inj hstep ▸ hkeep

/-! ## Each statement -/

variable {id p : Nat} {newParentId : Option Nat} {db1 : GroupDb}

theorem raceInv_inserting (h : RaceInv node parent s) (htask : s.tasks i = .inserting newParentId)
    (hinsert : s.db.insertGroup newParentId = some (id, db1)) :
    RaceInv node parent ⟨db1, Function.update s.tasks i (.linkingSelf id newParentId)⟩ := by
  obtain ⟨hid, hseq, hparents, hclosure, -⟩ := GroupDb.insertGroup_spec hinsert
  obtain ⟨hfresh, hparent, hhas⟩ := GroupDb.parentOf_insertGroup hinsert
  have hlink : db1.link = s.db.link := by
    funext a d n
    rw [GroupDb.link, hclosure]
    rfl
  refine h.write (x := id) ?_ ?_ ?_ ?_ ?_ (hlink ▸ h.paths) ⟨?_, ?_, ?_, ?_⟩ ?_
  · rw [htask]
    intro d hd
    contradiction
  · exact fun d hd => (Option.some.inj hd).symm
  · intro j _ hj
    have := (h.tasks j).lt_seq hj
    omega
  · omega
  · intro d hd
    rw [hparent, Function.update_of_ne hd, hhas, or_iff_right hd]
    exact ⟨Iff.rfl, rfl, Iff.rfl, rfl⟩
  · omega
  · exact fun hn => hfresh (h.has_of_node hn)
  · exact fun hp => hfresh (hparents id hp)
  · intro _
    rw [hparent, Function.update_self]
  · exact fun hne => absurd rfl hne

theorem raceInv_linkingSelf (h : RaceInv node parent s) (htask : s.tasks i = .linkingSelf id newParentId)
    (hinsert : s.db.insertLinks [⟨id, id, 0⟩] = some db1) :
    RaceInv (fun d => d = id ∨ node d) parent ⟨db1, Function.update s.tasks i (.linked id newParentId)⟩ := by
  have hholds := h.tasks i
  rw [htask] at hholds
  obtain ⟨hlt, hnode, hne, hparent⟩ := hholds
  have hgroups := (GroupDb.insertLinks_spec hinsert).1
  obtain ⟨hhas1, hparent1⟩ := GroupDb.eq_of_groups hgroups
  have hid1 : db1.Has id := (GroupDb.has_of_link ((GroupDb.link_insertSelf hinsert).mpr (.inr ⟨rfl, rfl, rfl⟩))).1
  have hid : s.db.Has id := hhas1 ▸ hid1
  have hroot := h.paths.parent_of_not_node hnode
  refine h.write (x := id) ?_ ?_ (h.other (htask ▸ rfl)) (by rw [hgroups]) ?_ ?_ ?_ ?_
  · rw [htask]
    exact fun d hd => (Option.some.inj hd).symm
  · intro d hd
    cases newParentId with
    | none => contradiction
    | some p =>
      rw [GroupTask.linked] at hd
      split at hd
      · contradiction
      · exact (Option.some.inj hd).symm
  · intro d hd
    rw [hhas1, hparent1]
    exact ⟨or_iff_right hd, rfl, Iff.rfl, rfl⟩
  · exact h.paths.addRoot hnode fun a d n => GroupDb.link_insertSelf hinsert
  · cases newParentId with
    | none => trivial
    | some p =>
      rw [GroupTask.linked]
      split
      · trivial
      · refine ⟨by rw [hgroups]; exact hlt, fun _ => .inl rfl, hroot, fun heq => hne (congrArg some heq), fun _ => ?_⟩
        rw [hparent1, hparent hid]
  · intro hwriting
    rw [hparent1, hparent hid]
    cases newParentId with
    | none => exact ⟨iff_of_true (.inl rfl) hid1, hroot⟩
    | some p =>
      by_cases hzero : p = 0
      · obtain ⟨r, hr, hrid⟩ := (GroupDb.has_of_parent (hparent hid)).2
        have := s.db.groups.bounds r hr
        omega
      · rw [GroupTask.linked, if_neg hzero] at hwriting
        exact absurd rfl hwriting

theorem raceInv_copyingPaths (h : RaceInv node parent s) (htask : s.tasks i = .copyingPaths id p)
    (hok : s.db.Has id → s.db.isDescendant p p = true ∧ ∀ d ∈ s.db.subtreeIds id, d = id)
    (hinsert : s.db.insertLinks (s.db.pathsFrom id p) = some db1) :
    ∃ parent', RaceInv node parent' ⟨db1, Function.update s.tasks i (.ended (some (.group id)))⟩ := by
  have hholds := h.tasks i
  rw [htask] at hholds
  obtain ⟨hlt, hnode, hroot, hne, hparent⟩ := hholds
  have hgroups := (GroupDb.insertLinks_spec hinsert).1
  obtain ⟨hhas1, hparent1⟩ := GroupDb.eq_of_groups hgroups
  have hold : ∀ d, (s.tasks i).writing = some d → d = id := by
    rw [htask]
    exact fun d hd => (Option.some.inj hd).symm
  have hnew : ∀ d, (GroupTask.ended (some (.group id))).writing = some d → d = id := fun d hd => (nomatch hd)
  by_cases hid : s.db.Has id
  · obtain ⟨hp, hleaf⟩ := hok hid
    have hpnode : node p := (h.paths.exists_link.mp (GroupDb.isDescendant_iff.mp hp)).1
    have hjoin := h.paths.joinLeaf hroot (hnode hid) hpnode hne
      (fun d n hd => hleaf d (GroupDb.mem_subtreeIds.mpr ⟨n, hd⟩)) fun a d n => GroupDb.link_insertPaths hinsert
    refine ⟨_, h.write (x := id) hold hnew (h.other (htask ▸ rfl)) (by rw [hgroups]) ?_ hjoin trivial fun _ => ?_⟩
    · intro d hd
      rw [hhas1, hparent1, Function.update_of_ne hd]
      exact ⟨Iff.rfl, rfl, Iff.rfl, rfl⟩
    · rw [hhas1, hparent1, Function.update_self, hparent hid]
      exact ⟨iff_of_true (hnode hid) hid, rfl⟩
  · -- nothing is copied to a group that is gone
    have hlink : db1.link = s.db.link := by
      funext a d n
      rw [eq_iff_iff, GroupDb.link_insertPaths hinsert]
      refine or_iff_left ?_
      rintro ⟨rfl, m, hm, hn⟩
      have hnewLink := (GroupDb.link_insertPaths hinsert).mpr (.inr ⟨rfl, m, hm, hn⟩)
      exact hid (hhas1 ▸ (GroupDb.has_of_link hnewLink).2)
    refine ⟨parent, h.write (x := id) hold hnew (h.other (htask ▸ rfl)) (by rw [hgroups]) ?_ (hlink ▸ h.paths)
      trivial fun _ => ?_⟩
    · intro d _
      rw [hhas1, hparent1]
      exact ⟨Iff.rfl, rfl, Iff.rfl, rfl⟩
    · rw [hhas1, hparent1]
      exact h.agree_of_not_has hid

theorem raceInv_removingOutside {descIds : List Nat} (h : RaceInv node parent s)
    (htask : s.tasks i = .removingOutside id newParentId descIds)
    (hsubtree : ∀ r ∈ s.db.groups.rows, r.id ∈ descIds ↔ r.id ∈ s.db.subtreeIds id)
    (hother : ∀ j, (s.tasks j).writing ≠ some id) : RaceInv node (Function.update parent id none)
      ⟨s.db.removeOutside descIds, Function.update s.tasks i (.removed id newParentId)⟩ := by
  have hholds := h.tasks i
  rw [htask] at hholds
  have hgroups : (s.db.removeOutside descIds).groups = s.db.groups := rfl
  obtain ⟨hhas1, hparent1⟩ := GroupDb.eq_of_groups hgroups
  have hcut := GroupDb.pathTable_removeOutside h.paths fun d hd => by
    obtain ⟨r, hr, rfl⟩ := h.has_of_node hd
    exact hsubtree r hr
  refine h.write (x := id) ?_ ?_ (fun j _ => hother j) (Nat.le_refl _) ?_ hcut ?_ ?_
  · exact fun d hd => absurd hd (by rw [htask]; exact nofun)
  · cases newParentId with
    | none => exact fun d hd => (Option.some.inj hd).symm
    | some p => exact fun d hd => (Option.some.inj hd).symm
  · intro d hd
    rw [hhas1, hparent1, Function.update_of_ne hd]
    exact ⟨Iff.rfl, rfl, Iff.rfl, rfl⟩
  · have hnode : s.db.Has id → node id := (h.free id hother).1.mpr
    rw [← hhas1] at hnode
    cases newParentId with
    | none => exact ⟨hholds, fun hid => ⟨hnode hid, Function.update_self ..⟩⟩
    | some p => exact ⟨hholds, hnode, Function.update_self ..⟩
  · intro hwriting
    cases newParentId with
    | none => exact absurd rfl hwriting
    | some p => exact absurd rfl hwriting

theorem raceInv_reconnecting (h : RaceInv node parent s) (htask : s.tasks i = .reconnecting id p)
    (hok : s.db.Has id → s.db.isDescendant p p = true ∧ s.db.isDescendant id p = false)
    (hinsert : s.db.insertLinks (s.db.crossLinks id p) = some db1) :
    ∃ parent', RaceInv node parent' ⟨db1, Function.update s.tasks i (.settingParent id (some p))⟩ := by
  have hholds := h.tasks i
  rw [htask] at hholds
  obtain ⟨hlt, hnode, hroot⟩ := hholds
  have hgroups := (GroupDb.insertLinks_spec hinsert).1
  obtain ⟨hhas1, hparent1⟩ := GroupDb.eq_of_groups hgroups
  have hold : ∀ d, (s.tasks i).writing = some d → d = id := by
    rw [htask]
    exact fun d hd => (Option.some.inj hd).symm
  have hnew : ∀ d, (GroupTask.settingParent id (some p)).writing = some d → d = id :=
    fun d hd => (Option.some.inj hd).symm
  by_cases hid : s.db.Has id
  · obtain ⟨hp, hcheck⟩ := hok hid
    have hpnode : node p := (h.paths.exists_link.mp (GroupDb.isDescendant_iff.mp hp)).1
    have hbelow : ¬ Below parent id p := by
      intro hbelow
      have hdesc := GroupDb.isDescendant_iff.mpr (h.paths.exists_link.mpr ⟨hpnode, hbelow⟩)
      rw [hcheck] at hdesc
      contradiction
    have hjoin := h.paths.join hroot (hnode hid) hpnode hbelow fun a d n => GroupDb.link_insertCross hinsert
    refine ⟨_, h.write (x := id) hold hnew (h.other (htask ▸ rfl)) (by rw [hgroups]) ?_ hjoin
      ⟨by rw [hgroups]; exact hlt, fun _ => ⟨hnode hid, Function.update_self ..⟩⟩ fun hne => absurd rfl hne⟩
    intro d hd
    rw [hhas1, hparent1, Function.update_of_ne hd]
    exact ⟨Iff.rfl, rfl, Iff.rfl, rfl⟩
  · -- a group that is gone has no subtree to link
    have hlink : db1.link = s.db.link := by
      funext a d n
      rw [eq_iff_iff, GroupDb.link_insertCross hinsert]
      refine or_iff_left ?_
      rintro ⟨m, k, -, hk, -⟩
      exact hid (GroupDb.has_of_link hk).1
    refine ⟨parent, h.write (x := id) hold hnew (h.other (htask ▸ rfl)) (by rw [hgroups]) ?_ (hlink ▸ h.paths)
      ⟨by rw [hgroups]; exact hlt, fun hid1 => absurd (hhas1 ▸ hid1) hid⟩ fun hne => absurd rfl hne⟩
    intro d _
    rw [hhas1, hparent1]
    exact ⟨Iff.rfl, rfl, Iff.rfl, rfl⟩

theorem raceInv_settingParent {outcome : Option GroupOutcome} (h : RaceInv node parent s)
    (htask : s.tasks i = .settingParent id newParentId) (hset : s.db.setParent id newParentId = some db1) :
    RaceInv node parent ⟨db1, Function.update s.tasks i (.ended outcome)⟩ := by
  have hholds := h.tasks i
  rw [htask] at hholds
  obtain ⟨-, hclosure, hseq, hhas, hparent, hself⟩ := GroupDb.setParent_spec hset
  have hlink : db1.link = s.db.link := by
    funext a d n
    rw [GroupDb.link, hclosure]
    rfl
  refine h.write (x := id) ?_ ?_ (h.other (htask ▸ rfl)) (Nat.le_of_eq hseq.symm) ?_ (hlink ▸ h.paths) trivial ?_
  · rw [htask]
    exact fun d hd => (Option.some.inj hd).symm
  · intro d hd
    contradiction
  · exact fun d hd => ⟨Iff.rfl, rfl, hhas d, hparent d hd⟩
  · intro _
    rw [hhas]
    by_cases hid : s.db.Has id
    · rw [hself hid]
      exact ⟨iff_of_true (hholds.2 hid).1 hid, (hholds.2 hid).2⟩
    · have hagree := h.agree_of_not_has hid
      rw [GroupDb.parentOf_of_not_has hid] at hagree
      rw [GroupDb.parentOf_of_not_has fun hid1 => hid ((hhas id).mp hid1)]
      exact hagree

theorem raceInv_deleting {outcome : Option GroupOutcome} (h : RaceInv node parent s)
    (htask : s.tasks i = .deleting id)
    (hok : ∀ j, (s.tasks j).orphaned s.db id = false) :
    ∃ node' parent', RaceInv node' parent' ⟨s.db.deleteGroup id, Function.update s.tasks i (.ended outcome)⟩ := by
  -- the forest of the closure loses whatever is below a missing group, too
  have hgone : ∀ d e, parent d = some e → s.db.isBelow id e = true → s.db.isBelow id d = true := by
    intro d e hparent he
    by_cases hfree : ∀ j, (s.tasks j).writing ≠ some d
    · exact GroupDb.isBelow_of_parent ((h.free d hfree).2 ▸ hparent) he
    · rw [not_forall] at hfree
      obtain ⟨j, hj⟩ := hfree
      rw [not_not] at hj
      have hd := h.has_of_node (h.paths.ends d e hparent).1
      have hholds := h.tasks j
      cases hjtask : s.tasks j with
      | linkingSelf m q =>
        rw [hjtask] at hj hholds
        obtain rfl := Option.some.inj hj
        exact absurd (h.paths.ends _ e hparent).1 hholds.2.1
      | copyingPaths m q =>
        rw [hjtask] at hj hholds
        obtain rfl := Option.some.inj hj
        exact absurd (hparent.symm.trans hholds.2.2.1) nofun
      | reconnecting m q =>
        rw [hjtask] at hj hholds
        obtain rfl := Option.some.inj hj
        exact absurd (hparent.symm.trans hholds.2.2) nofun
      | settingParent m q =>
        rw [hjtask] at hj hholds
        obtain rfl := Option.some.inj hj
        have hq : q = some e := (hholds.2 hd).2.symm.trans hparent
        have hspared := hok j
        rw [hjtask, hq, GroupTask.orphaned, decide_eq_true hd, he, Bool.true_and, Bool.true_and,
          Bool.not_eq_false'] at hspared
        exact hspared
      | _ =>
        rw [hjtask] at hj
        contradiction
  have hpaths := h.paths.remove hgone fun a d n => GroupDb.link_deleteGroup
  have hwriting : ∀ j d, (Function.update s.tasks i (.ended outcome) j).writing = some d →
      j ≠ i ∧ (s.tasks j).writing = some d := by
    intro j d hj
    by_cases hji : j = i
    · rw [hji, Function.update_self] at hj
      contradiction
    · rw [Function.update_of_ne hji] at hj
      exact ⟨hji, hj⟩
  refine ⟨_, _, hpaths, fun d hd => ?_, fun j => ?_, fun j k d hj hk => ?_⟩
  · have hfree := h.free d fun j hj => by
      refine hd j ?_
      have hji : j ≠ i := by
        rintro rfl
        rw [htask] at hj
        contradiction
      dsimp only
      rw [Function.update_of_ne hji]
      exact hj
    dsimp only
    rw [GroupDb.has_deleteGroup, GroupDb.parentOf_deleteGroup, prune, prune, hfree.1, hfree.2]
    exact ⟨Iff.rfl, rfl⟩
  · dsimp only
    by_cases hji : j = i
    · rw [hji, Function.update_self]
      trivial
    · rw [Function.update_of_ne hji]
      exact (h.tasks j).remove
  · exact h.alone j k d (hwriting j d hj).2 (hwriting k d hk).2

/-! ## Runs -/

theorem raceInv_next {s' : GroupRace ι} (h : RaceInv node parent s) (hok : UndisturbedStep s (.next i))
    (hstep : raceStep s (.next i) = some s') : ∃ node' parent', RaceInv node' parent' s' := by
  obtain ⟨⟨t, db1⟩, hadvance, rfl⟩ := Option.map_eq_some_iff.mp hstep
  rw [UndisturbedStep] at hok
  have hholds := h.tasks i
  have hread : ∀ t, (s.tasks i).writing = none → t.writing = none → t.Holds node parent s.db →
      ∃ node' parent', RaceInv node' parent' ⟨s.db, Function.update s.tasks i t⟩ := by
    intro t hold hnew ht
    refine ⟨node, parent, h.keep hnew (fun d hd => ?_) ht⟩
    rw [hold] at hd
    contradiction
  cases htask : s.tasks i with
  | inserting parentId =>
    rw [htask] at hadvance
    obtain ⟨r, hinsert, heq⟩ := Option.map_eq_some_iff.mp hadvance
    obtain ⟨rfl, rfl⟩ := Prod.mk.inj heq
    exact ⟨_, _, raceInv_inserting h htask hinsert⟩
  | linkingSelf id parentId =>
    rw [htask] at hadvance
    obtain ⟨db2, hinsert, heq⟩ := Option.map_eq_some_iff.mp hadvance
    obtain ⟨rfl, rfl⟩ := Prod.mk.inj heq
    exact ⟨_, _, raceInv_linkingSelf h htask hinsert⟩
  | copyingPaths id parentId =>
    rw [htask] at hadvance hok
    obtain ⟨db2, hinsert, heq⟩ := Option.map_eq_some_iff.mp hadvance
    obtain ⟨rfl, rfl⟩ := Prod.mk.inj heq
    exact ⟨_, raceInv_copyingPaths h htask hok hinsert⟩
  | selecting id newParentId =>
    rw [htask] at hadvance
    obtain ⟨rfl, rfl⟩ := Prod.mk.inj (Option.some.inj hadvance)
    refine hread _ (by rw [htask]; rfl) ?_ ?_
    · split
      · cases newParentId with
        | none => rfl
        | some p => rfl
      · rfl
    · split
      · rename_i hid
        obtain ⟨r, hr, rfl⟩ := hid
        have hlt := (s.db.groups.bounds r hr).2
        cases newParentId with
        | none => exact hlt
        | some p => exact hlt
      · trivial
  | checking id newParentId =>
    rw [htask] at hadvance hholds
    obtain ⟨rfl, rfl⟩ := Prod.mk.inj (Option.some.inj hadvance)
    refine hread _ (by rw [htask]; rfl) ?_ ?_
    · split
      · rfl
      · rfl
    · split
      · trivial
      · exact hholds
  | selectingSubtree id newParentId =>
    rw [htask] at hadvance hholds
    obtain ⟨rfl, rfl⟩ := Prod.mk.inj (Option.some.inj hadvance)
    exact hread _ (by rw [htask]; rfl) rfl hholds
  | removingOutside id newParentId descIds =>
    rw [htask] at hadvance hok
    obtain ⟨rfl, rfl⟩ := Prod.mk.inj (Option.some.inj hadvance)
    exact ⟨_, _, raceInv_removingOutside h htask hok.1 hok.2⟩
  | reconnecting id newParentId =>
    rw [htask] at hadvance hok
    obtain ⟨db2, hinsert, heq⟩ := Option.map_eq_some_iff.mp hadvance
    obtain ⟨rfl, rfl⟩ := Prod.mk.inj heq
    exact ⟨_, raceInv_reconnecting h htask hok hinsert⟩
  | settingParent id newParentId =>
    rw [htask] at hadvance
    obtain ⟨db2, hset, heq⟩ := Option.map_eq_some_iff.mp hadvance
    obtain ⟨rfl, rfl⟩ := Prod.mk.inj heq
    exact ⟨_, _, raceInv_settingParent h htask hset⟩
  | pluckingSubtree id =>
    rw [htask] at hadvance
    obtain ⟨rfl, rfl⟩ := Prod.mk.inj (Option.some.inj hadvance)
    exact hread _ (by rw [htask]; rfl) rfl trivial
  | deleting id =>
    rw [htask] at hadvance hok
    obtain ⟨rfl, rfl⟩ := Prod.mk.inj (Option.some.inj hadvance)
    exact raceInv_deleting h htask hok
  | ended outcome =>
    rw [htask] at hadvance
    contradiction

end inv

theorem raceInv_start {db : GroupDb} (hdb : db.Correct) (ops : ι → GroupOp) :
    RaceInv db.Has db.parentOf (.start db ops) := by
  have hidle : ∀ i, (GroupRace.start db ops).tasks i = (ops i).task := fun i => rfl
  have hwriting : ∀ i, ((GroupRace.start db ops).tasks i).writing = none := by
    intro i
    rw [hidle]
    cases ops i with
    | create parentId => rfl
    | move id newParentId => rfl
    | delete id => rfl
  refine ⟨hdb.pathTable, fun d _ => ⟨Iff.rfl, rfl⟩, fun i => ?_, fun i j d hi _ => ?_⟩
  · rw [hidle]
    cases ops i with
    | create parentId => trivial
    | move id newParentId => trivial
    | delete id => trivial
  · rw [hwriting] at hi
    contradiction

/-- In every run of operations from a correct database, statement by statement and with errors at any point, whose
steps find what they rely on unchanged, the parents form a forest and the closure holds its paths whenever no
operation is between its first and its last write, and so when all have ended. -/
theorem interleaved_correct [DecidableEq ι] (db : GroupDb) (hdb : db.Correct) (ops : ι → GroupOp)
    (actions : List (RaceAction ι)) (s : GroupRace ι) (hrun : run raceStep (.start db ops) actions = some s)
    (hmeets : StepsMeet raceStep UndisturbedStep (.start db ops) actions)
    (hquiet : ∀ i, (s.tasks i).writing = none) : s.db.Correct := by
  obtain ⟨node, parent, hinv⟩ : ∃ node parent, RaceInv node parent s := by
    refine run_invariant (P := fun s => ∃ node parent, RaceInv node parent s) ?_ ⟨_, _, raceInv_start hdb ops⟩
      hmeets hrun
    rintro s a s' ⟨node, parent, hinv⟩ hok hstep
    cases a with
    | next i => exact raceInv_next hinv hok hstep
    | error i => exact ⟨node, parent, raceInv_error hinv hok hstep⟩
  have hfree := fun d => hinv.free d fun i hi => absurd ((hquiet i).symm.trans hi) nofun
  have hnode : node = s.db.Has := funext fun d => propext (hfree d).1
  have hparent : parent = s.db.parentOf := funext fun d => (hfree d).2
  exact GroupDb.correct_of_pathTable (hnode ▸ hparent ▸ hinv.paths)

/-- A move of the second group to the top beside a new group under the first, statement by statement in turn. -/
def moveBesideCreate : Option (GroupRace Bool) :=
  run raceStep (.start (groupsAfter [.create none, .create (some 1)]) fun i => if i then .move 2 none
    else .create (some 1)) [.next true, .next false, .next true, .next false, .next true, .next false, .next true]

theorem moveBesideCreate_correct : ∃ s, moveBesideCreate = some s ∧
    s.db.closure.rows = [⟨1, 1, 0⟩, ⟨2, 2, 0⟩, ⟨3, 3, 0⟩, ⟨1, 3, 1⟩] ∧ s.db.Correct := by
  have hrun : moveBesideCreate.map (fun s => (s.db.closure.rows, (s.tasks true).writing, (s.tasks false).writing)) =
      some ([⟨1, 1, 0⟩, ⟨2, 2, 0⟩, ⟨3, 3, 0⟩, ⟨1, 3, 1⟩], none, none) := by decide +kernel
  obtain ⟨s, h, heq⟩ := Option.map_eq_some_iff.mp hrun
  obtain ⟨hrows, hwriting⟩ := Prod.mk.inj heq
  obtain ⟨htrue, hfalse⟩ := Prod.mk.inj hwriting
  refine ⟨s, h, hrows, interleaved_correct _ (correct_groupsAfter _) _ _ s h (by decide +kernel) fun i => ?_⟩
  cases i with
  | false => exact hfalse
  | true => exact htrue

/-- A group is moved under a new group that is being created under it: the move finds no links of the new group. -/
def moveUnderNew : Option (GroupRace Bool) :=
  run raceStep (.start (groupsAfter [.create none]) fun i => if i then .create (some 1) else .move 1 (some 2))
    [.next true, .next false, .next false, .next false, .next false, .next false, .next false, .next true, .next true]

/-- A group is moved to the top, with an error at the last statement. -/
def failedMove : Option (GroupRace Bool) :=
  run raceStep (.start (groupsAfter [.create none, .create (some 1)]) fun i => if i then .move 2 none else .delete 9)
    [.next true, .next true, .next true, .error true, .next false, .next false]

/-- Two groups under each other after two operations that both succeed; a closure without the path to a parent
after one that fails. -/
theorem groupOps_not_atomic :
    (∃ s, moveUnderNew = some s ∧ s.tasks true = .ended (some (.group 2)) ∧
      s.tasks false = .ended (some (.group 1)) ∧ ¬ Acyclic s.db.parentOf) ∧
    ∃ s, failedMove = some s ∧ s.tasks true = .ended none ∧ s.tasks false = .ended (some (.deleted false)) ∧
      s.db.parentOf 2 = some 1 ∧ ⟨1, 2, 1⟩ ∉ s.db.closure.rows := by
  have hnew : moveUnderNew.map (fun s => (s.db.parentOf 1, s.db.parentOf 2, s.tasks true, s.tasks false)) =
      some (some 2, some 1, .ended (some (.group 2)), .ended (some (.group 1))) := by decide +kernel
  have hfailed : failedMove.map (fun s => (s.db.parentOf 2, s.db.closure.rows, s.tasks true, s.tasks false)) =
      some (some 1, [⟨1, 1, 0⟩, ⟨2, 2, 0⟩], .ended none, .ended (some (.deleted false))) := by decide +kernel
  constructor
  · obtain ⟨s, h, heq⟩ := Option.map_eq_some_iff.mp hnew
    simp only [Prod.mk.injEq] at heq
    refine ⟨s, h, heq.2.2.1, heq.2.2.2, fun hacyclic => hacyclic 1 1 ?_⟩
    rw [up_succ_of_parent heq.1, up_succ_of_parent heq.2.1]
    rfl
  · obtain ⟨s, h, heq⟩ := Option.map_eq_some_iff.mp hfailed
    simp only [Prod.mk.injEq] at heq
    refine ⟨s, h, heq.2.2.1, heq.2.2.2, heq.1, ?_⟩
    rw [heq.2.1]
    decide

end Obliguard.Server

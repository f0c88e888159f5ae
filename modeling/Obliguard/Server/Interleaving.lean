import Obliguard.Server.Enforcement

/-!
# Turning enforcement off, statement by statement

`reconcileListBans`, `update` and `delete` are sequences of SQL statements without a transaction, so
the statements of a running sync and of an operator's request interleave. Here each of them is a
program counter with the data it has read so far, and one step runs one statement.
`reconcile_alone`, `update_alone` and `delete_alone` say that a request that runs alone does what
its definition as one operation says.

A reconciliation reads the enforce flag once and inserts bans later. `run_off` says that no ban of
the list is left when no such insert comes after the operator's request has read the ids to lift;
`insert_after_off` is a run with an insert that does.
-/

namespace Obliguard.Server

open Bans Runs

/-! ## Statements -/

/-- One `UPDATE` of `deactivateBans` as `remote_sync`. -/
def liftChunk (now : Int) (db : Db) (chunk : List Nat) : Db :=
  { db with bans := (deactivateChunk now .remoteSync ([], db.bans) chunk).2 }

/-- The ids that `deactivateRemoteBans` reads. -/
def listBanIds (db : Db) (listId : Nat) : List Nat :=
  (db.bans.rows.filter (isListBan listId)).map (·.id)

/-- Where a reconciliation stands, with what it has read. -/
inductive ReconcilePc
  | readFlag
  | readIds
  | lift (chunks : List (List Nat))
  | readStale
  | liftStale (chunks : List (List Nat))
  | readMissing
  | insert (chunks : List (List RemoteTarget))
  | done

/-- The next statement of `reconcileListBans`. -/
def reconcileStatement (env : SafetyEnv) (now : Int) (list : Blocklist) (db : Db) :
    ReconcilePc → Db × ReconcilePc
  | .readFlag => (db, if storedEnforce db list.id then .readStale else .readIds)
  | .readIds => (db, .lift (liftChunks (listBanIds db list.id)))
  | .lift [] => (db, .done)
  | .lift (c :: cs) => (liftChunk now db c, .lift cs)
  | .readStale => (db, .liftStale (liftChunks (staleIds db list.id)))
  | .liftStale [] => (db, .readMissing)
  | .liftStale (c :: cs) => (liftChunk now db c, .liftStale cs)
  | .readMissing => (db, .insert (slices remoteInsertChunk (missingTargets env db list)))
  | .insert [] => (db, .done)
  | .insert (c :: cs) => (insertRemoteChunk (listOptions list) db c, .insert cs)
  | .done => (db, .done)

/-- Where the operator's request stands. -/
inductive OperatorPc
  | readUpdate (tenantId : Option Nat) (patch : ListPatch)
  | writeUpdate (current : Blocklist) (patch : ListPatch)
  | reconcile (row : Blocklist) (pc : ReconcilePc)
  | readDelete (tenantId : Option Nat)
  | readIds (current : Blocklist)
  | lift (current : Blocklist) (chunks : List (List Nat))
  | deleteRow (current : Blocklist)
  | deleted
  /-- The list is not there, or its flag does not change. -/
  | unchanged

/-- The tables after the `UPDATE` of a list. -/
def writePatch (db : Db) (listId : Nat) (patch : ListPatch) : Db :=
  { db with
    blocklists := db.blocklists.update (fun l => l.id == listId) (Blocklist.patched patch)
      (Blocklist.patched_id patch) }

/-- The tables after the `DELETE` of a list. -/
def deleteListRow (db : Db) (listId : Nat) : Db :=
  { db with
    blocklists := db.blocklists.delete fun l => l.id == listId
    blockedIps := db.blockedIps.delete fun e => e.blocklistId == listId }

/-- The next statement of `update` or `delete` of the list. -/
def operatorStatement (env : SafetyEnv) (now : Int) (listId : Nat) (db : Db) :
    OperatorPc → Db × OperatorPc
  | .readUpdate tenantId patch => (db, match getRow db listId tenantId with
      | none => .unchanged
      | some current => .writeUpdate current patch)
  | .writeUpdate current patch =>
    let db := writePatch db current.id patch
    (db, match db.blocklists.find current.id with
      | none => .unchanged
      | some row => if row.enforce != current.enforce then .reconcile row .readFlag else .unchanged)
  | .reconcile row pc =>
    let r := reconcileStatement env now row db pc
    (r.1, .reconcile row r.2)
  | .readDelete tenantId => (db, match getRow db listId tenantId with
      | none => .unchanged
      | some current => .readIds current)
  | .readIds current => (db, .lift current (liftChunks (listBanIds db current.id)))
  | .lift current [] => (db, .deleteRow current)
  | .lift current (c :: cs) => (liftChunk now db c, .lift current cs)
  | .deleteRow current => (deleteListRow db current.id, .deleted)
  | .deleted => (db, .deleted)
  | .unchanged => (db, .unchanged)

/-- The request has completed. -/
def OperatorPc.isFinished : OperatorPc → Bool
  | .reconcile _ .done | .deleted | .unchanged => true
  | _ => false

/-! ## Alone -/

section alone
variable {env : SafetyEnv} {now : Int} {list : Blocklist} {db : Db}

theorem foldl_liftChunk (cs : List (List Nat)) (db : Db) : cs.foldl (liftChunk now) db =
    { db with bans := (cs.foldl (deactivateChunk now .remoteSync) ([], db.bans)).2 } := by
  have hfold : ∀ (cs : List (List Nat)) (acc : List BanRow × Table BanRow.id) (db : Db),
      acc.2 = db.bans → cs.foldl (liftChunk now) db =
        { db with bans := (cs.foldl (deactivateChunk now .remoteSync) acc).2 } := by
    intro cs
    induction cs with
    | nil =>
      rintro acc db hacc
      rw [List.foldl_nil, List.foldl_nil, hacc]
    | cons c cs ih =>
      intro acc db hacc
      rw [List.foldl_cons, List.foldl_cons]
      refine (ih (deactivateChunk now .remoteSync acc c) (liftChunk now db c) ?_).trans rfl
      rw [liftChunk, deactivateChunk, deactivateChunk, hacc]
  exact hfold cs ([], db.bans) db rfl

/-- The statements of a deactivation, one after the other. -/
theorem foldl_liftChunks (ids : List Nat) (db : Db) :
    (liftChunks ids).foldl (liftChunk now) db = (deactivateBans db now ids .remoteSync).2 := by
  rw [foldl_liftChunk]
  rfl

/-- A reconciliation whose statements run without any other in between is `reconcileListBans`. -/
theorem reconcile_alone : Leads (fun p : Db × ReconcilePc => reconcileStatement env now list p.1 p.2)
    (db, .readFlag) (reconcileListBans env now list db, .done) := by
  by_cases henf : storedEnforce db list.id = true
  · have hread : reconcileStatement env now list db .readFlag = (db, .readStale) := by
      simp only [reconcileStatement, henf, if_true]
    rw [reconcileListBans, if_pos henf]
    apply Leads.head
    simp only [hread]
    apply Leads.head
    refine (leads_loop (c := ReconcilePc.liftStale) (g := liftChunk now) (fun _ _ _ => rfl) db _).trans ?_
    rw [foldl_liftChunks]
    apply Leads.head
    apply Leads.head
    refine (leads_loop (c := ReconcilePc.insert) (g := insertRemoteChunk (listOptions list))
      (fun _ _ _ => rfl) _ _).trans ?_
    apply Leads.head
    exact Leads.refl _ _
  · have hread : reconcileStatement env now list db .readFlag = (db, .readIds) := by
      simp only [reconcileStatement, henf, Bool.false_eq_true, if_false]
    rw [reconcileListBans, if_neg henf]
    apply Leads.head
    simp only [hread]
    apply Leads.head
    refine (leads_loop (c := ReconcilePc.lift) (g := liftChunk now) (fun _ _ _ => rfl) db _).trans ?_
    rw [foldl_liftChunks]
    apply Leads.head
    exact Leads.refl _ _

theorem leads_reconcile (listId : Nat) {pc pc' : ReconcilePc} {db' : Db}
    (h : Leads (fun p : Db × ReconcilePc => reconcileStatement env now list p.1 p.2) (db, pc) (db', pc')) :
    Leads (fun p : Db × OperatorPc => operatorStatement env now listId p.1 p.2)
      (db, .reconcile list pc) (db', .reconcile list pc') := by
  obtain ⟨n, hn⟩ := h
  refine ⟨n, ?_⟩
  induction n generalizing db pc with
  | zero =>
    obtain ⟨rfl, rfl⟩ := Prod.mk.inj hn
    rfl
  | succ n ih => exact ih hn

/-- An update whose statements run alone is `updateList`. -/
theorem update_alone (listId : Nat) (tenantId : Option Nat) (patch : ListPatch) : ∃ pc : OperatorPc,
    pc.isFinished = true ∧ Leads (fun p : Db × OperatorPc => operatorStatement env now listId p.1 p.2)
      (db, .readUpdate tenantId patch) (updateList env now listId tenantId patch db, pc) := by
  cases hrow : getRow db listId tenantId with
  | none =>
    refine ⟨.unchanged, rfl, Leads.head ?_⟩
    simp only [operatorStatement, updateList, hrow]
    exact Leads.refl _ _
  | some current =>
    have hfind : (writePatch db current.id patch).blocklists.find current.id =
        some (current.patched patch) := by
      refine Table.find_eq_some.mpr ⟨?_, rfl⟩
      rw [writePatch, Table.mem_update]
      exact ⟨current, (getRow_eq_some hrow).1, if_pos (by simp)⟩
    have hupdate : updateList env now listId tenantId patch db =
        if (current.patched patch).enforce != current.enforce then
          reconcileListBans env now (current.patched patch) (writePatch db current.id patch)
        else writePatch db current.id patch := by
      simp only [updateList, hrow]
      rfl
    have hread : operatorStatement env now listId db (.readUpdate tenantId patch) =
        (db, .writeUpdate current patch) := by
      simp only [operatorStatement, hrow]
    have hwrite : operatorStatement env now listId db (.writeUpdate current patch) =
        (writePatch db current.id patch, if (current.patched patch).enforce != current.enforce then
          .reconcile (current.patched patch) .readFlag else .unchanged) := by
      simp only [operatorStatement, hfind]
    rw [hupdate]
    by_cases hflag : ((current.patched patch).enforce != current.enforce) = true
    · rw [if_pos hflag] at hwrite ⊢
      refine ⟨.reconcile (current.patched patch) .done, rfl, Leads.head ?_⟩
      simp only [hread]
      apply Leads.head
      simp only [hwrite]
      exact leads_reconcile listId reconcile_alone
    · rw [if_neg hflag] at hwrite ⊢
      refine ⟨.unchanged, rfl, Leads.head ?_⟩
      simp only [hread]
      apply Leads.head
      simp only [hwrite]
      exact Leads.refl _ _

/-- A deletion whose statements run alone is `deleteList`. -/
theorem delete_alone (listId : Nat) (tenantId : Option Nat) : ∃ pc : OperatorPc,
    pc.isFinished = true ∧ Leads (fun p : Db × OperatorPc => operatorStatement env now listId p.1 p.2)
      (db, .readDelete tenantId) (deleteList now listId tenantId db, pc) := by
  cases hrow : getRow db listId tenantId with
  | none =>
    refine ⟨.unchanged, rfl, Leads.head ?_⟩
    simp only [operatorStatement, deleteList, hrow]
    exact Leads.refl _ _
  | some current =>
    refine ⟨.deleted, rfl, Leads.head ?_⟩
    have hread : operatorStatement env now listId db (.readDelete tenantId) = (db, .readIds current) := by
      simp only [operatorStatement, hrow]
    simp only [hread]
    apply Leads.head
    refine (leads_loop (c := OperatorPc.lift current) (g := liftChunk now) (fun _ _ _ => rfl) db _).trans ?_
    rw [foldl_liftChunks]
    apply Leads.head
    apply Leads.head
    simp only [operatorStatement, deleteList, hrow]
    exact Leads.refl _ _

end alone

/-! ## Interleavings -/

/-- A running sync or switch of an entry: the row of the list it read, which may be out of date, and
where its reconciliation stands. -/
structure Sync where
  list : Blocklist
  pc : ReconcilePc

/-- Any number of syncs and one request of an operator. -/
structure Interleaved where
  db : Db
  now : Int
  syncs : List Sync
  operator : OperatorPc

inductive InterleavedAction
  /-- A sync or a switch comes to its reconciliation. -/
  | start (list : Blocklist)
  /-- The next statement of a sync. -/
  | sync (k : Nat)
  /-- The next statement of the operator's request. -/
  | operator
  /-- Some entries are written. -/
  | entries (entries : Table BlockedIp.id)
  | pass (time : Int)

def interleavedStep (env : SafetyEnv) (listId : Nat) (s : Interleaved) :
    InterleavedAction → Option Interleaved
  | .start list => some { s with syncs := s.syncs ++ [⟨list, .readFlag⟩] }
  | .sync k => s.syncs[k]?.map fun p =>
      let r := reconcileStatement env s.now p.list s.db p.pc
      { s with db := r.1, syncs := s.syncs.set k ⟨p.list, r.2⟩ }
  | .operator =>
    let r := operatorStatement env s.now listId s.db s.operator
    some { s with db := r.1, operator := r.2 }
  | .entries entries => some { s with db := { s.db with blockedIps := entries } }
  | .pass time => if s.now ≤ time then some { s with now := time } else none

/-- The request has read the ids to lift. -/
def OperatorPc.hasRead : OperatorPc → Bool
  | .reconcile _ (.lift _) | .reconcile _ .done | .lift _ _ | .deleteRow _ | .deleted => true
  | _ => false

/-- The condition: no sync of the list inserts bans once the operator's request has read the ids to
lift. -/
def InsertsInTime (listId : Nat) (s : Interleaved) : InterleavedAction → Prop
  | .sync k => ∀ p ∈ s.syncs[k]?, p.list.id = listId → ∀ c cs, p.pc = .insert (c :: cs) →
      s.operator.hasRead = false
  | _ => True

/-- The active bans of the list are among the ids of the chunks. -/
def LeftToLift (listId : Nat) (bans : Table BanRow.id) (chunks : List (List Nat)) : Prop :=
  ∀ b ∈ bans.rows, isListBan listId b = true → b.id ∈ chunks.flatten

/-- What is left to do, by where the request stands. -/
def Pending (listId : Nat) (db : Db) : OperatorPc → Prop
  | .readUpdate _ patch => storedEnforce db listId = true ∧ patch.enforce = some false
  | .writeUpdate current patch => current ∈ db.blocklists.rows ∧ current.id = listId ∧
      current.enforce = true ∧ patch.enforce = some false
  | .reconcile row .readFlag | .reconcile row .readIds =>
      row.id = listId ∧ storedEnforce db listId = false
  | .reconcile row (.lift chunks) => row.id = listId ∧ storedEnforce db listId = false ∧
      LeftToLift listId db.bans chunks
  | .reconcile _ .done => LeftToLift listId db.bans []
  | .reconcile _ _ => False
  | .readDelete _ => storedEnforce db listId = true
  | .readIds current => current.id = listId
  | .lift current chunks => current.id = listId ∧ LeftToLift listId db.bans chunks
  | .deleteRow _ | .deleted => LeftToLift listId db.bans []
  | .unchanged => storedEnforce db listId = true

section statements
variable {env : SafetyEnv} {now : Int} {listId : Nat} {db : Db}

theorem reconcileStatement_blocklists {list : Blocklist} {pc : ReconcilePc} :
    (reconcileStatement env now list db pc).1.blocklists = db.blocklists := by
  unfold reconcileStatement
  split <;> rfl

theorem mem_liftChunk {c : List Nat} {b : BanRow} (hb : b ∈ (liftChunk now db c).bans.rows)
    (ha : b.isActive = true) : b ∈ db.bans.rows ∧ b.id ∉ c := by
  simp only [liftChunk, deactivateChunk, Table.mem_update] at hb
  obtain ⟨r, hr, rfl⟩ := hb
  split at ha
  · simp [BanRow.deactivated] at ha
  · rename_i hn
    rw [if_neg hn]
    exact ⟨hr, fun hc => hn (by simp [hc, ha])⟩

theorem leftToLift_liftChunk {c : List Nat} {cs : List (List Nat)}
    (h : LeftToLift listId db.bans (c :: cs)) : LeftToLift listId (liftChunk now db c).bans cs := by
  intro b hb hlist
  obtain ⟨hb, hc⟩ := mem_liftChunk hb (isActive_of_isListBan hlist)
  have := h b hb hlist
  rw [List.flatten_cons, List.mem_append] at this
  exact this.resolve_left hc

theorem leftToLift_read (listId : Nat) (db : Db) :
    LeftToLift listId db.bans (liftChunks (listBanIds db listId)) := by
  intro b hb hlist
  have hid : b.id ∈ (distinct (listBanIds db listId)).filter fun n => decide (0 < n) := by
    have hpos := (db.bans.bounds b hb).1
    have hmem : b.id ∈ listBanIds db listId := (Table.key_mem_map_filter hb).mpr hlist
    simp [hmem, hpos]
  obtain ⟨c, hc, hbc⟩ := (mem_slices (n := deactivateChunkSize) (by decide)).mpr hid
  exact List.mem_flatten.mpr ⟨c, hc, hbc⟩

/-- A statement of a sync adds no active ban of the list, unless it is an insert of that list. -/
theorem leftToLift_reconcileStatement {list : Blocklist} {pc : ReconcilePc} {cs : List (List Nat)}
    (hpc : list.id = listId → ∀ c cs', pc ≠ .insert (c :: cs')) (h : LeftToLift listId db.bans cs) :
    LeftToLift listId (reconcileStatement env now list db pc).1.bans cs := by
  have hlift : ∀ c, LeftToLift listId (liftChunk now db c).bans cs := by
    intro c b hb hlist
    exact h b (mem_liftChunk hb (isActive_of_isListBan hlist)).1 hlist
  unfold reconcileStatement
  split
  case h_4 c cs' => exact hlift c
  case h_7 c cs' => exact hlift c
  case h_10 c cs' =>
    intro b hb hlist
    rcases mem_foldl_insertRemote hb with hb | ⟨t, -, id, rfl⟩
    · exact h b hb hlist
    · have hl : list.id = listId := isListBan_unique (by simp [isListBan, remoteRow, listOptions]) hlist
      exact absurd rfl (hpc hl c cs')
  all_goals exact h

theorem pending_congr {db' : Db} {pc : OperatorPc} (hl : db'.blocklists = db.blocklists)
    (hleft : pc.hasRead = true → ∀ cs, LeftToLift listId db.bans cs → LeftToLift listId db'.bans cs)
    (h : Pending listId db pc) : Pending listId db' pc := by
  have hflag : storedEnforce db' listId = storedEnforce db listId := by
    rw [storedEnforce, hl]
    rfl
  cases pc with
  | readUpdate tenantId patch => exact ⟨hflag.trans h.1, h.2⟩
  | writeUpdate current patch => exact ⟨hl ▸ h.1, h.2⟩
  | readDelete tenantId => exact hflag.trans h
  | readIds current => exact h
  | lift current cs => exact ⟨h.1, hleft rfl cs h.2⟩
  | deleteRow current => exact hleft rfl [] h
  | deleted => exact hleft rfl [] h
  | unchanged => exact hflag.trans h
  | reconcile row rpc =>
    cases rpc with
    | readFlag => exact ⟨h.1, hflag.trans h.2⟩
    | readIds => exact ⟨h.1, hflag.trans h.2⟩
    | lift cs => exact ⟨h.1, hflag.trans h.2.1, hleft rfl cs h.2.2⟩
    | done => exact hleft rfl [] h
    | readStale | liftStale | readMissing | insert => exact h

theorem pending_writeUpdate {current : Blocklist} {patch : ListPatch}
    (h : Pending listId db (.writeUpdate current patch)) :
    Pending listId (operatorStatement env now listId db (.writeUpdate current patch)).1
      (operatorStatement env now listId db (.writeUpdate current patch)).2 := by
  obtain ⟨hmem, hid, hon, hpatch⟩ := h
  have hrow : current.patched patch ∈ (writePatch db current.id patch).blocklists.rows := by
    rw [writePatch, Table.mem_update]
    exact ⟨current, hmem, if_pos (by simp)⟩
  have hfind : (writePatch db current.id patch).blocklists.find current.id =
      some (current.patched patch) := Table.find_eq_some.mpr ⟨hrow, rfl⟩
  have hoff : (current.patched patch).enforce = false := by
    rw [Blocklist.patched, hpatch]
    rfl
  simp only [operatorStatement, hfind, hoff, hon, Bool.false_bne, if_true]
  refine ⟨hid, ?_⟩
  rw [← hid, ← hoff]
  exact storedEnforce_of_mem hrow

theorem pending_operator {pc : OperatorPc} (h : Pending listId db pc) :
    Pending listId (operatorStatement env now listId db pc).1
      (operatorStatement env now listId db pc).2 := by
  cases pc with
  | readUpdate tenantId patch =>
    simp only [operatorStatement]
    cases hrow : getRow db listId tenantId with
    | none => exact h.1
    | some current =>
      obtain ⟨hmem, hid⟩ := getRow_eq_some hrow
      refine ⟨hmem, hid, ?_, h.2⟩
      rw [← storedEnforce_of_mem hmem, hid]
      exact h.1
  | writeUpdate current patch => exact pending_writeUpdate h
  | readDelete tenantId =>
    simp only [operatorStatement]
    cases hrow : getRow db listId tenantId with
    | none => exact h
    | some current => exact (getRow_eq_some hrow).2
  | readIds current =>
    refine ⟨h, ?_⟩
    rw [show current.id = listId from h]
    exact leftToLift_read listId db
  | lift current cs =>
    cases cs with
    | nil => exact h.2
    | cons c cs => exact ⟨h.1, leftToLift_liftChunk h.2⟩
  | deleteRow current => exact h
  | deleted => exact h
  | unchanged => exact h
  | reconcile row rpc =>
    cases rpc with
    | readFlag =>
      simp only [operatorStatement, reconcileStatement, h.1, h.2, Bool.false_eq_true, if_false]
      exact h
    | readIds =>
      refine ⟨h.1, h.2, ?_⟩
      rw [h.1]
      exact leftToLift_read listId db
    | lift cs =>
      cases cs with
      | nil => exact h.2.2
      | cons c cs => exact ⟨h.1, h.2.1, leftToLift_liftChunk h.2.2⟩
    | done => exact h
    | readStale | liftStale | readMissing | insert => exact False.elim h

end statements

theorem pending_step {env : SafetyEnv} {listId : Nat} {s s' : Interleaved} {a : InterleavedAction}
    (h : Pending listId s.db s.operator) (hok : InsertsInTime listId s a)
    (hs : interleavedStep env listId s a = some s') : Pending listId s'.db s'.operator := by
  cases a with
  | start list =>
    rw [← Option.some.inj hs]
    exact h
  | sync k =>
    obtain ⟨p, hp, rfl⟩ := Option.map_eq_some_iff.mp hs
    refine pending_congr reconcileStatement_blocklists ?_ h
    intro hread cs hleft
    apply leftToLift_reconcileStatement _ hleft
    intro hid c cs' hpc
    rw [hok p hp hid c cs' hpc] at hread
    contradiction
  | operator =>
    rw [← Option.some.inj hs]
    exact pending_operator h
  | entries entries =>
    rw [← Option.some.inj hs]
    exact pending_congr rfl (fun _ _ hleft => hleft) h
  | pass time =>
    simp only [interleavedStep] at hs
    split at hs
    · rw [← Option.some.inj hs]
      exact h
    · contradiction

/-- The request turns enforcement off or deletes the list. -/
def OperatorPc.turnsOff : OperatorPc → Prop
  | .readUpdate _ patch => patch.enforce = some false
  | .readDelete _ => True
  | _ => False

/-- In every interleaving whose inserts come in time, an enforcing list has no active ban left when
the request that turned enforcement off has completed. -/
theorem run_off (env : SafetyEnv) (listId : Nat) (s s' : Interleaved) (as : List InterleavedAction)
    (hon : storedEnforce s.db listId = true) (hop : s.operator.turnsOff)
    (hok : StepsMeet (interleavedStep env listId) (InsertsInTime listId) s as)
    (h : run (interleavedStep env listId) s as = some s') (hfin : s'.operator.isFinished = true)
    (hoff : storedEnforce s'.db listId = false) :
    ∀ b ∈ s'.db.bans.rows, isListBan listId b = false := by
  have hstart : Pending listId s.db s.operator := by
    revert hop
    cases s.operator with
    | readUpdate tenantId patch => exact fun hop => ⟨hon, hop⟩
    | readDelete tenantId => exact fun _ => hon
    | _ => exact False.elim
  have hend : Pending listId s'.db s'.operator :=
    run_invariant (P := fun t => Pending listId t.db t.operator)
      (fun _ _ _ hinv hin hs => pending_step hinv hin hs) hstart hok h
  have hleft : LeftToLift listId s'.db.bans [] := by
    revert hend hfin
    cases s'.operator with
    | reconcile row rpc =>
      cases rpc with
      | done => exact fun _ hend => hend
      | _ => exact fun hfin => absurd hfin (by simp [OperatorPc.isFinished])
    | deleted => exact fun _ hend => hend
    | unchanged =>
      intro _ hend
      rw [show storedEnforce s'.db listId = true from hend] at hoff
      contradiction
    | _ => exact fun hfin => absurd hfin (by simp [OperatorPc.isFinished])
  intro b hb
  by_contra hlist
  have := hleft b hb ((Bool.not_eq_false _).mp hlist)
  simp at this

/-! ## One list with one entry -/

/-- The entry of an address that has no ban yet. -/
def newEntry : BlockedIp :=
  ⟨1, 1, ⟨.v4, 0xc6336407, 32, sampleHost.addr_lt, sampleHost.len_le⟩, some "blocklist", 1, 0, true, .banned⟩

/-- A sync of the first list comes to its reconciliation while an operator turns enforcement off. -/
def syncAndOff : Interleaved where
  db := { twoListsDb with blockedIps := ⟨[newEntry], 2, by decide, Nat.two_pos, by decide⟩ }
  now := 0
  syncs := [⟨⟨1, "A", .url, "https://a.example", none, true, none⟩, .readFlag⟩]
  operator := .readUpdate (some 1) ⟨none, none, none, some false⟩

theorem insertsInTime_operator {env : SafetyEnv} {listId : Nat} (m : Nat) (s : Interleaved) :
    StepsMeet (interleavedStep env listId) (InsertsInTime listId) s (List.replicate m .operator) := by
  induction m generalizing s with
  | zero => trivial
  | succ m ih => exact ⟨trivial, fun s' _ => ih s'⟩

theorem insertsInTime_sync {env : SafetyEnv} {listId : Nat} (n m : Nat) (s : Interleaved)
    (h : s.operator.hasRead = false) : StepsMeet (interleavedStep env listId) (InsertsInTime listId) s
      (List.replicate n (.sync 0) ++ List.replicate m .operator) := by
  induction n generalizing s with
  | zero => exact insertsInTime_operator m s
  | succ n ih =>
    refine ⟨fun _ _ _ _ _ _ => h, fun s' hs' => ih s' ?_⟩
    obtain ⟨p, -, rfl⟩ := Option.map_eq_some_iff.mp hs'
    exact h

/-- The sync completes before the request: its ban is lifted. -/
theorem run_off_syncFirst : ∃ s', run (interleavedStep plainEnv 1) syncAndOff
    (List.replicate 6 (.sync 0) ++ List.replicate 6 .operator) = some s' ∧
      s'.db.bans.rows.length = 1 ∧ ∀ b ∈ s'.db.bans.rows, isListBan 1 b = false := by
  have hruns : (run (interleavedStep plainEnv 1) syncAndOff
      (List.replicate 6 (InterleavedAction.sync 0) ++ List.replicate 6 InterleavedAction.operator)).any (fun s' =>
        s'.db.bans.rows.length == 1 && s'.operator.isFinished && !storedEnforce s'.db 1) = true := by
    decide +kernel
  obtain ⟨s', hs, hend⟩ := (Option.any_eq_true _ _).mp hruns
  simp only [Bool.and_eq_true, beq_iff_eq, Bool.not_eq_true'] at hend
  obtain ⟨⟨hlen, hfin⟩, hoff⟩ := hend
  exact ⟨s', hs, hlen, run_off plainEnv 1 syncAndOff s' _ (by decide +kernel) rfl
    (insertsInTime_sync 6 6 _ rfl) hs hfin hoff⟩

/-- The sync reads the flag and the missing bans, the request turns enforcement off and completes,
and then the sync inserts the ban. -/
theorem insert_after_off : storedEnforce syncAndOff.db 1 = true ∧ syncAndOff.operator.turnsOff ∧
    ∃ s', run (interleavedStep plainEnv 1) syncAndOff
      (List.replicate 4 (.sync 0) ++ List.replicate 5 .operator ++ List.replicate 2 (.sync 0)) =
        some s' ∧
      s'.operator.isFinished = true ∧ s'.syncs.map (·.pc) = [.done] ∧
      storedEnforce s'.db 1 = false ∧ ∃ b ∈ s'.db.bans.rows, isListBan 1 b = true := by
  have hruns : (run (interleavedStep plainEnv 1) syncAndOff
      (List.replicate 4 (InterleavedAction.sync 0) ++ List.replicate 5 InterleavedAction.operator ++
        List.replicate 2 (InterleavedAction.sync 0))).any (fun s' =>
        s'.operator.isFinished && s'.syncs.map (fun t => t.pc matches .done) == [true] &&
          !storedEnforce s'.db 1 && s'.db.bans.rows.any (isListBan 1)) = true := by
    decide +kernel
  obtain ⟨s', hs, hend⟩ := (Option.any_eq_true _ _).mp hruns
  simp only [Bool.and_eq_true, beq_iff_eq, Bool.not_eq_true', List.any_eq_true] at hend
  obtain ⟨⟨⟨hfin, hdone⟩, hoff⟩, hban⟩ := hend
  refine ⟨by decide +kernel, rfl, s', hs, hfin, ?_, hoff, hban⟩
  obtain ⟨t, ht, hpc⟩ := List.map_eq_singleton_iff.mp hdone
  rw [ht, List.map_singleton]
  cases hc : t.pc with
  | done => rfl
  | _ => simp [hc] at hpc

end Obliguard.Server

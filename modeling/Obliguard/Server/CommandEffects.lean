import Obliguard.Server.AgentCommands

/-!
# What a statement of the command queue can do

`commandStep_effect` says all that a statement can do to the tables, the transactions and the
history, and the `exec` lemmas what an update does to the versions of a row. Every invariant of the
queue is a case analysis over them.
-/

namespace Obliguard.Server

open ReadCommitted Runs

/-! ## Updates -/

namespace CommandUpdate

variable (u : CommandUpdate) (r : AgentCommandRow)

theorem set_deviceId : (u.set r).deviceId = r.deviceId := by
  unfold set
  split
  all_goals rfl

theorem set_type : (u.set r).type = r.type := by
  unfold set
  split
  all_goals rfl

theorem set_status_ne_queued (h : ∀ ids, u ≠ .requeue ids) : (u.set r).status ≠ .queued := by
  cases u with
  | requeue ids => exact absurd rfl (h ids)
  | ack id deviceId status result now =>
    cases status
    all_goals simp [set]
  | _ => simp [set]

theorem isOpen_of_cond {u : CommandUpdate} {r : AgentCommandRow} {i : Nat}
    (hsend : ∀ ids now, u ≠ .send ids now) (h : u.cond i r = true) : r.status.isOpen = true := by
  cases u with
  | send ids now => exact absurd rfl (hsend ids now)
  | ack id deviceId status result now =>
    cases status
    all_goals
      cases hr : r.status
      all_goals simp [cond, hr] at h
      all_goals rfl
  | _ =>
    cases hr : r.status
    all_goals simp [cond, hr, AgentCommandStatus.isOpen] at h
    all_goals rfl

end CommandUpdate

/-! ## What a statement can do -/

namespace CommandTx

def deviceId : CommandTx → Nat
  | .enqueueSelect d | .enqueueInsert d | .enqueueDevice d | .enqueueCommit d => d.deviceId
  | .claimExpire c | .claimPending c | .claimInsert c | .claimSelect c | .claimUpdate c _
  | .claimDevice c _ | .claimCommit c _ => c.deviceId

/-- The rows that a claim is to return. -/
def rows : CommandTx → List Nat
  | .claimUpdate _ rows | .claimDevice _ rows | .claimCommit _ rows => rows
  | _ => []

/-- Whether a claim has updated its rows. -/
def sent : CommandTx → Bool
  | .claimDevice _ _ | .claimCommit _ _ => true
  | _ => false

end CommandTx

/-- The updates of the transactions. -/
def CommandUpdate.inClaim : CommandUpdate → Bool
  | .expireOf _ _ | .send _ _ | .sendLegacy _ _ => true
  | _ => false

/-- The events of a statement that commits at once. -/
def CommandUpdate.events (u : CommandUpdate) (ids : List Nat) : List DeliveryEvent :=
  match u with
  | .requeue _ => ids.map .requeued
  | _ => []

/-- No lock on a device row is lost. -/
def LocksKept (devices devices' : Store AgentDeviceRow) : Prop :=
  ∀ i t, (devices.cells i).owned (some t) = true → (devices'.cells i).owned (some t) = true

/-- All that a statement can do. -/
inductive CommandEffect (s : CommandDb) (a : CommandAction) : CommandDb → Prop
  | keep {devices : Store AgentDeviceRow} {deviceWrites : List DeviceWrite}
      (hlocks : LocksKept s.devices devices) :
      CommandEffect s a { s with devices := devices, deviceWrites := deviceWrites }
  | start {t : Nat} {tx : CommandTx} {devices : Store AgentDeviceRow} (hrows : tx.rows = [])
      (hsent : tx.sent = false) (howned : (devices.cells tx.deviceId).owned (some t) = true)
      (hlocks : LocksKept s.devices devices) :
      CommandEffect s a { (s.setTx t (some tx)) with devices := devices }
  | advance {t : Nat} {tx tx' : CommandTx} {devices : Store AgentDeviceRow}
      (htx : s.txs t = some tx) (hdevice : tx'.deviceId = tx.deviceId)
      (hrows : tx'.rows = tx.rows ∧ (tx'.sent = true → tx.sent = true) ∨
        tx'.sent = false ∧ ∀ i ∈ tx'.rows, ∃ r, (s.commands.cells i).view (some t) = some r ∧
          r.deviceId = tx.deviceId ∧ r.status = .queued)
      (hlocks : LocksKept s.devices devices) :
      CommandEffect s a { (s.setTx t (some tx')) with devices := devices }
  | update {t : Nat} {tx tx' : CommandTx} {u : CommandUpdate} {ids : List Nat}
      {commands : Store AgentCommandRow} (ha : a = .next t) (htx : s.txs t = some tx)
      (hdevice : tx'.deviceId = tx.deviceId)
      (hexec : u.exec s.commands (some t) = .done (ids, commands))
      (hrows : tx'.rows = [] ∧ tx'.sent = false ∧ (∃ d now, u = .expireOf d now) ∨
        tx'.rows = ids ∧ ((∃ c is, tx = .claimUpdate c is ∧ u = .send is c.now) ∨
          ∃ now, u = .sendLegacy tx.deviceId now)) :
      CommandEffect s a { (s.setTx t (some tx')) with commands := commands }
  | insert {t : Nat} {tx tx' : CommandTx} {r : AgentCommandRow} {commands : Store AgentCommandRow}
      (htx : s.txs t = some tx) (hdevice : tx'.deviceId = tx.deviceId)
      (hins : s.commands.insert outstandingKey (some t) r = .done commands)
      (hrows : tx'.rows = []) (hsent : tx'.sent = false) :
      CommandEffect s a { (s.setTx t (some tx')) with commands := commands }
  | commit {t : Nat} {tx : CommandTx} (htx : s.txs t = some tx)
      (hsent : tx.rows = [] ∨ tx.sent = true) :
      CommandEffect s a { (s.commit t) with
        events := s.events ++ tx.rows.map fun i =>
          .returned i ((s.commands.cells i).committed.map (·.status)) }
  | rollback {t : Nat} : CommandEffect s a (s.rollback t)
  | alone {u : CommandUpdate} {ids : List Nat} {commands : Store AgentCommandRow}
      {deviceWrites : List DeviceWrite} (hu : u.inClaim = false)
      (hexec : u.exec s.commands none = .done (ids, commands)) :
      CommandEffect s a { s with
        commands := commands
        deviceWrites := deviceWrites
        events := s.events ++ u.events ids }

theorem locksKept_refl (devices : Store AgentDeviceRow) : LocksKept devices devices :=
  fun _ _ h => h

theorem locksKept_updateDevice {s : CommandDb} {tx : Option Nat} {p : Nat → AgentDeviceRow → Bool}
    {f : AgentDeviceRow → AgentDeviceRow} {ids : List Nat} {devices : Store AgentDeviceRow}
    (h : s.updateDevice tx p f = .done (ids, devices)) : LocksKept s.devices devices := by
  intro i t howned
  have hw := update_writes h
  by_cases hi : i ∈ ids
  · obtain ⟨r, hr⟩ := Cell.owned_iff.mp howned
    have htx := Cell.owned_of_not_lockedByOther (hw.free i hi) hr
    obtain ⟨r', hr'⟩ := hw.wrote i hi
    rw [hr', htx]
    exact Cell.owned_iff.mpr ⟨r', rfl⟩
  · rw [hw.same i hi]
    exact howned

theorem mem_queuedIds {s : CommandDb} {t d i : Nat} (h : i ∈ s.queuedIds t d) :
    ∃ r, (s.commands.cells i).view (some t) = some r ∧ r.deviceId = d ∧ r.status = .queued := by
  have hi := List.mem_of_mem_take h
  rw [List.mem_insertionSort] at hi
  obtain ⟨r, hr, hcond⟩ := mem_select.mp hi
  rw [Bool.and_eq_true, beq_iff_eq, beq_iff_eq] at hcond
  exact ⟨r, hr, hcond⟩

theorem lockDevice_effect {s s' : CommandDb} {a : CommandAction} {t : Nat} {p : Nat → AgentDeviceRow → Bool}
    {start : Nat → AgentDeviceRow → Option CommandTx} (h : s.lockDevice t p start = some s')
    (hstart : ∀ d dev tx, p d dev = true → start d dev = some tx →
      tx.deviceId = d ∧ tx.rows = [] ∧ tx.sent = false) : CommandEffect s a s' := by
  have hkeep : CommandEffect s a s := .keep (locksKept_refl s.devices)
  unfold CommandDb.lockDevice at h
  split at h
  · rename_i d ids devices hupd
    have hd := (mem_update hupd).mp (List.mem_cons_self (a := d) (l := ids))
    obtain ⟨dev, hdev, hp⟩ := hd
    have hcell := cells_update hupd List.mem_cons_self hdev
    have hview : (devices.cells d).view (some t) = some dev := by
      rw [hcell]
      exact Cell.view_of_working rfl
    rw [hview] at h
    dsimp only at h
    split at h
    · rename_i tx htx
      rw [← Option.some.inj h]
      obtain ⟨hdevice, hrows, hsent⟩ := hstart d dev tx hp htx
      refine .start hrows hsent ?_ (locksKept_updateDevice hupd)
      rw [hdevice, hcell]
      exact Cell.owned_iff.mpr ⟨_, rfl⟩
    · exact Option.some.inj h ▸ hkeep
  · exact Option.some.inj h ▸ hkeep
  · contradiction

section next
variable {s s' : CommandDb} {a : CommandAction} {t : Nat} {tx tx' : CommandTx}

theorem inTxDevice_effect {o : Outcome (List Nat × Store AgentDeviceRow)}
    (htx : s.txs t = some tx) (h : s.inTxDevice t o tx' = some s')
    (ho : ∀ ids devices, o = .done (ids, devices) → LocksKept s.devices devices)
    (hdevice : tx'.deviceId = tx.deviceId) (hrows : tx'.rows = tx.rows)
    (hsent : tx'.sent = true → tx.sent = true) : CommandEffect s a s' := by
  unfold CommandDb.inTxDevice at h
  split at h
  · rename_i ids devices
    rw [← Option.some.inj h]
    exact .advance htx hdevice (.inl ⟨hrows, hsent⟩) (ho ids devices rfl)
  · rw [← Option.some.inj h]
    exact .rollback
  · contradiction

theorem inTx_effect {u : CommandUpdate} {next : List Nat → CommandTx} (ha : a = .next t)
    (htx : s.txs t = some tx)
    (h : s.inTx t (u.exec s.commands (some t)) next = some s')
    (hdevice : ∀ ids, (next ids).deviceId = tx.deviceId)
    (hrows : ∀ ids, (next ids).rows = [] ∧ (next ids).sent = false ∧ (∃ d now, u = .expireOf d now) ∨
      (next ids).rows = ids ∧ ((∃ c is, tx = .claimUpdate c is ∧ u = .send is c.now) ∨
        ∃ now, u = .sendLegacy tx.deviceId now)) :
    CommandEffect s a s' := by
  unfold CommandDb.inTx at h
  split at h
  · rename_i ids commands hexec
    rw [← Option.some.inj h]
    exact .update ha htx (hdevice ids) hexec (hrows ids)
  · rw [← Option.some.inj h]
    exact .rollback
  · contradiction

theorem setTx_effect (htx : s.txs t = some tx) (hdevice : tx'.deviceId = tx.deviceId)
    (hrows : tx'.rows = tx.rows ∧ (tx'.sent = true → tx.sent = true) ∨
      tx'.sent = false ∧ ∀ i ∈ tx'.rows, ∃ r, (s.commands.cells i).view (some t) = some r ∧
        r.deviceId = tx.deviceId ∧ r.status = .queued) :
    CommandEffect s a (s.setTx t (some tx')) :=
  .advance htx hdevice hrows (locksKept_refl s.devices)

theorem next_effect (htx : s.txs t = some tx) (h : s.next t tx = some s') :
    CommandEffect s (.next t) s' := by
  cases tx with
  | enqueueSelect d =>
    simp only [CommandDb.next] at h
    split at h
    · rw [← Option.some.inj h]
      exact setTx_effect htx rfl (.inl ⟨rfl, id⟩)
    · rw [← Option.some.inj h]
      exact .rollback
  | enqueueInsert d =>
    simp only [CommandDb.next] at h
    split at h
    · rename_i commands hins
      rw [← Option.some.inj h]
      exact .insert htx rfl hins rfl rfl
    · rw [← Option.some.inj h]
      exact .rollback
    · contradiction
  | enqueueDevice d =>
    simp only [CommandDb.next] at h
    split at h
    · exact inTxDevice_effect htx h (fun _ _ => locksKept_updateDevice) rfl rfl id
    · rw [← Option.some.inj h]
      exact setTx_effect htx rfl (.inl ⟨rfl, id⟩)
  | enqueueCommit d =>
    simp only [CommandDb.next] at h
    rw [← Option.some.inj h]
    have heffect := CommandEffect.commit (a := .next t) htx (.inl rfl)
    rw [show (CommandTx.enqueueCommit d).rows = [] from rfl, List.map_nil, List.append_nil]
      at heffect
    exact heffect
  | claimExpire c =>
    simp only [CommandDb.next] at h
    exact inTx_effect rfl htx h (fun _ => rfl) fun _ => .inl ⟨rfl, rfl, _, _, rfl⟩
  | claimPending c =>
    simp only [CommandDb.next] at h
    rw [← Option.some.inj h]
    split
    · exact setTx_effect htx rfl (.inl ⟨rfl, id⟩)
    · exact setTx_effect htx rfl (.inl ⟨rfl, id⟩)
  | claimInsert c =>
    simp only [CommandDb.next] at h
    split at h
    · rename_i commands hins
      rw [← Option.some.inj h]
      exact .insert htx rfl hins rfl rfl
    · rw [← Option.some.inj h]
      exact .rollback
    · contradiction
  | claimSelect c =>
    simp only [CommandDb.next] at h
    split at h
    · rw [← Option.some.inj h]
      exact setTx_effect htx rfl (.inr ⟨rfl, fun i hi => mem_queuedIds hi⟩)
    · exact inTx_effect rfl htx h (fun _ => rfl) fun _ => .inr ⟨rfl, .inr ⟨_, rfl⟩⟩
  | claimUpdate c ids =>
    simp only [CommandDb.next] at h
    exact inTx_effect rfl htx h (fun _ => rfl) fun _ => .inr ⟨rfl, .inl ⟨c, ids, rfl, rfl⟩⟩
  | claimDevice c rows =>
    simp only [CommandDb.next] at h
    split at h
    · exact inTxDevice_effect htx h (fun _ _ => locksKept_updateDevice) rfl rfl id
    · rw [← Option.some.inj h]
      exact setTx_effect htx rfl (.inl ⟨rfl, id⟩)
  | claimCommit c rows =>
    simp only [CommandDb.next] at h
    rw [← Option.some.inj h]
    exact .commit htx (.inr rfl)

end next

theorem alone_effect {s s' : CommandDb} {a : CommandAction} {u : CommandUpdate}
    {after : List Nat → CommandDb → CommandDb} (hu : u.inClaim = false)
    (h : s.alone u after = some s')
    (hafter : ∀ ids s', after ids s' = { s' with
      deviceWrites := (after ids s').deviceWrites
      events := s'.events ++ u.events ids }) : CommandEffect s a s' := by
  unfold CommandDb.alone at h
  split at h
  · rename_i ids commands hexec
    rw [← Option.some.inj h, hafter]
    exact .alone hu hexec
  · rw [← Option.some.inj h]
    exact .keep (locksKept_refl s.devices)
  · contradiction

theorem commandStep_effect {s s' : CommandDb} {a : CommandAction}
    (h : commandStep s a = some s') : CommandEffect s a s' := by
  -- a statement without events of its own
  have hplain : ∀ {u : CommandUpdate} {ids : List Nat} (s : CommandDb), u.events ids = [] →
      s = { s with deviceWrites := s.deviceWrites, events := s.events ++ u.events ids } := by
    intro u ids s hu
    rw [hu, List.append_nil]
  cases a with
  | beginEnqueue t d =>
    simp only [commandStep] at h
    split at h
    · contradiction
    · refine lockDevice_effect h ?_
      intro i dev tx hp htx
      rw [Bool.and_eq_true, beq_iff_eq] at hp
      rw [← Option.some.inj htx]
      exact ⟨hp.1.symm, rfl, rfl⟩
  | beginClaim t deviceId cmdqueue now =>
    simp only [commandStep] at h
    split at h
    · contradiction
    · refine lockDevice_effect h ?_
      intro i dev tx hp htx
      rw [beq_iff_eq] at hp
      split at htx
      · rw [← Option.some.inj htx]
        exact ⟨hp.symm, rfl, rfl⟩
      · contradiction
  | next t =>
    simp only [commandStep] at h
    obtain ⟨tx, htx, h⟩ := Option.bind_eq_some_iff.mp h
    exact next_effect htx h
  | abort t =>
    simp only [commandStep] at h
    obtain ⟨tx, htx, rfl⟩ := Option.map_eq_some_iff.mp h
    exact .rollback
  | requeue ids =>
    simp only [commandStep] at h
    exact alone_effect rfl h fun _ _ => rfl
  | fail id deviceId now result =>
    simp only [commandStep] at h
    exact alone_effect rfl h fun _ s => hplain s rfl
  | ack deviceId id status result now =>
    simp only [commandStep] at h
    split at h
    · rw [← Option.some.inj h]
      exact .keep (locksKept_refl s.devices)
    · refine alone_effect rfl h ?_
      intro rows s
      rw [show CommandUpdate.events (.ack _ _ _ _ _) rows = [] from rfl, List.append_nil]
  | sweepExpired now | sweepTimedOut now =>
    simp only [commandStep] at h
    exact alone_effect rfl h fun _ s => hplain s rfl
  | deviceWrite n =>
    simp only [commandStep] at h
    split at h
    · contradiction
    · split at h
      · rename_i ids devices hupd
        rw [← Option.some.inj h]
        exact .keep (locksKept_updateDevice hupd)
      · contradiction

section exec
variable {s : CommandDb} {u : CommandUpdate} {tx : Option Nat} {ids : List Nat}
  {commands : Store AgentCommandRow} (hexec : u.exec s.commands tx = .done (ids, commands))
include hexec

theorem exec_cell (i : Nat) : (i ∉ ids ∧ commands.cells i = s.commands.cells i) ∨
    (i ∈ ids ∧ (s.commands.cells i).lockedByOther tx = false ∧ ∃ r,
      (s.commands.cells i).view tx = some r ∧ u.cond i r = true ∧
        commands.cells i = (s.commands.cells i).write tx (u.set r)) := by
  have hw := update_writes hexec
  by_cases hi : i ∈ ids
  · obtain ⟨r, hr, hcond⟩ := (mem_update hexec).mp hi
    exact .inr ⟨hi, hw.free i hi, r, hr, hcond, cells_update hexec hi hr⟩
  · exact .inl ⟨hi, hw.same i hi⟩

theorem exec_fixed (h : ∀ i, (s.commands.cells i).Fixed AgentCommandRow.deviceId) (i : Nat) :
    (commands.cells i).Fixed AgentCommandRow.deviceId := by
  rcases exec_cell hexec i with ⟨-, heq⟩ | ⟨-, hfree, r, hr, -, heq⟩
  · rw [heq]
    exact h i
  · rw [heq]
    exact (h i).write hr (u.set_deviceId r) hfree

theorem exec_view {i t : Nat} {r : AgentCommandRow}
    (hr : (s.commands.cells i).view (some t) = some r) :
    ∃ r', (commands.cells i).view (some t) = some r' ∧ r'.deviceId = r.deviceId := by
  rcases exec_cell hexec i with ⟨-, heq⟩ | ⟨-, hfree, r0, hr0, -, heq⟩
  · exact ⟨r, heq ▸ hr, rfl⟩
  · rw [heq]
    exact Cell.exists_view_write (g := AgentCommandRow.deviceId) hr0 (u.set_deviceId r0) hfree hr

theorem exec_working_other {i t : Nat} {r : AgentCommandRow} (htx : tx ≠ some t)
    (hr : (s.commands.cells i).working = some (t, r)) :
    (commands.cells i).working = some (t, r) := by
  rcases exec_cell hexec i with ⟨-, heq⟩ | ⟨-, hfree, -⟩
  · rw [heq]
    exact hr
  · exact absurd (Cell.owned_of_not_lockedByOther hfree hr) htx

theorem exec_committed {i : Nat} {r : AgentCommandRow}
    (hr : (commands.cells i).committed = some r) :
    (s.commands.cells i).committed = some r ∨ i ∈ ids ∧ ∃ r0, r = u.set r0 := by
  rcases exec_cell hexec i with ⟨-, heq⟩ | ⟨hi, -, r0, -, -, heq⟩
  · exact .inl (heq ▸ hr)
  · rw [heq] at hr
    cases tx with
    | none => exact .inr ⟨hi, r0, (Option.some.inj hr).symm⟩
    | some t => exact .inl hr

theorem exec_working {i t : Nat} {r : AgentCommandRow}
    (hr : (commands.cells i).working = some (t, r)) :
    (s.commands.cells i).working = some (t, r) ∨ i ∈ ids ∧ ∃ r0, r = u.set r0 := by
  rcases exec_cell hexec i with ⟨-, heq⟩ | ⟨hi, -, r0, -, -, heq⟩
  · exact .inl (heq ▸ hr)
  · rw [heq] at hr
    cases tx with
    | none => exact .inl hr
    | some t' => exact .inr ⟨hi, r0, (Prod.mk.inj (Option.some.inj hr)).2.symm⟩

end exec

end Obliguard.Server

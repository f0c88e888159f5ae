import Obliguard.Server.CommandEffects

/-!
# Uninstalls and the cleanup job

Who gets an uninstall and who is deleted: the drains of the queue (on connect, after a heartbeat, in
the config frame or the response of an older agent), the acknowledgements, the sweeps, the requeues
and `cleanupUninstalledDevices`, interleaved. `claim` and `enqueue` are one step here (their statements,
run without a break, come to it: `claim_statements`): both hold the lock of the device row from their
first statement to the commit, and every other write of the device row waits for it. Everything after
a claim is a step of its own, and may fail.

`claim` sets `uninstall_commanded_at` before anything is written, and only the requeue or the report
of a failure takes it back. `careful` is the condition under which they do; `deleted_delivered` is the
result, and `deleted_unwritten` a run without it.
-/

namespace Obliguard.Server

open ReadCommitted Runs

/-! ## Drains -/

/-- Who claims: the hub for its channel, `handlePush` for the config frame of a heartbeat that began
at `since`, `handlePush` for a response. -/
inductive DrainKind
  | hub
  | pushFrame (since : Int)
  | pushResponse
deriving DecidableEq

/-- A claimed row with its id. -/
structure ClaimedRow where
  id : Nat
  row : AgentCommandRow
deriving DecidableEq

def ClaimedRow.isUninstall (c : ClaimedRow) : Bool := c.row.type == .uninstall

/-- Where a drain stands after its claim. -/
inductive Drain
  /-- The loop of `_deliverCommands`, with the rows still to send and those it could not. -/
  | frames (deviceId : Nat) (rows unsent : List ClaimedRow)
  /-- A config frame or a response is to carry the uninstall. -/
  | config (kind : DrainKind) (deviceId : Nat) (rows : List ClaimedRow)
  /-- Before the select of `requeueLegacyUninstall`. -/
  | selecting (deviceId : Nat) (since : Int) (rows : List ClaimedRow)
  /-- Before the first statement of `requeue`. -/
  | requeuing (deviceId : Nat) (rows : List ClaimedRow)
deriving DecidableEq

namespace Drain

def deviceId : Drain → Nat
  | .frames d _ _ | .config _ d _ | .selecting d _ _ | .requeuing d _ => d

/-- The claimed rows that are neither written nor requeued. -/
def rows : Drain → List ClaimedRow
  | .frames _ rows unsent => rows ++ unsent
  | .config _ _ rows | .selecting _ _ rows | .requeuing _ rows => rows

def holdsUninstall (d : Drain) : Bool := d.rows.any (·.isUninstall)

/-- The end of the loop of `_deliverCommands`. -/
def settle : Drain → Option Drain
  | .frames _ [] [] => none
  | .frames d [] unsent => some (.requeuing d unsent)
  | drain => some drain

/-- What a drain does with its claim. -/
def start (kind : DrainKind) (deviceId : Nat) (cmdqueue : Bool) (rows : List ClaimedRow) :
    Option Drain :=
  if rows = [] then none
  else if cmdqueue then some (.frames deviceId rows [])
  else some (.config kind deviceId rows)

end Drain

inductive UninstallEvent
  /-- A frame or a response with the uninstall of the row. -/
  | written (deviceId row : Nat)
  | reportedFailed (deviceId row : Nat)
  | deleted (deviceId : Nat)
deriving DecidableEq

structure Fleet where
  commands : Store AgentCommandRow
  devices : Store AgentDeviceRow
  /-- The device updates that calls of `requeue` and `ack` have still to make. -/
  deviceWrites : List DeviceWrite
  drains : Nat → Option Drain
  /-- The drains there have been. -/
  started : List Nat
  /-- The devices that runs of the cleanup job selected. -/
  selected : List Nat
  log : List UninstallEvent

namespace Fleet

variable (s : Fleet)

def setDrain (t : Nat) (drain : Option Drain) : Fleet :=
  { s with drains := fun u => if u = t then drain else s.drains u }

def updateDevice (p : Nat → AgentDeviceRow → Bool) (f : AgentDeviceRow → AgentDeviceRow) :
    Outcome (List Nat × Store AgentDeviceRow) :=
  s.devices.update (fun _ => (none : Option Unit)) none p fun _ => f

/-- The rows of some ids, as `RETURNING` gives them. -/
def returning (ids : List Nat) : List ClaimedRow :=
  ids.filterMap fun i => (s.commands.cells i).committed.map (⟨i, ·⟩)

/-- The insert of `claim` for a pending uninstall without an outstanding row. -/
def claimInsert (c : ClaimData) (commands : Store AgentCommandRow) : Outcome (Store AgentCommandRow) :=
  let open_ := commands.select none fun _ r =>
    r.deviceId == c.deviceId && r.type == .uninstall && r.outstanding
  if c.dev.pendingCommand = some .uninstall ∧ open_ = [] then
    commands.insert outstandingKey none c.uninstallRow
  else .done commands

/-- The delivery of `claim`. -/
def claimSend (c : ClaimData) (commands : Store AgentCommandRow) :
    Outcome (List Nat × Store AgentCommandRow) :=
  if c.cmdqueue then
    let ids := commands.select none fun _ r => r.deviceId == c.deviceId && r.status == .queued
    let createdAt : Nat → Int := fun i => ((commands.cells i).committed.map (·.createdAt)).getD 0
    (CommandUpdate.send ((ids.insertionSort fun i j => createdAt i ≤ createdAt j).take drainLimit)
      c.now).exec commands none
  else (CommandUpdate.sendLegacy c.deviceId c.now).exec commands none

/-- The update of the device row by `claim`. -/
def claimDevice (c : ClaimData) (rows : List ClaimedRow) : Outcome (Store AgentDeviceRow) :=
  if rows.any (·.isUninstall) then
    match s.updateDevice (fun i _ => i == c.deviceId) c.device with
    | .done (_, devices) => .done devices
    | .violation => .violation
    | .blocked => .blocked
  else .done s.devices

/-- `claim`, committed: the rows it returns and the tables. An error leaves the tables as they
were. -/
def claim (deviceId : Nat) (cmdqueue : Bool) (now : Int) : List ClaimedRow × Fleet :=
  match (s.devices.cells deviceId).committed with
  | none => ([], s)
  | some dev =>
    let c : ClaimData := ⟨deviceId, cmdqueue, now, dev⟩
    if dev.status ≠ .approved then ([], s)
    else match (CommandUpdate.expireOf deviceId now).exec s.commands none with
      | .done (_, expired) => match claimInsert c expired with
        | .done inserted => match claimSend c inserted with
          | .done (ids, commands) =>
            let s' := { s with commands := commands }
            let rows := s'.returning ids
            match s'.claimDevice c rows with
            | .done devices => (rows, { s' with devices := devices })
            | _ => ([], s)
          | _ => ([], s)
        | _ => ([], s)
      | _ => ([], s)

/-- `enqueue`, committed. -/
def enqueue (d : EnqueueData) : Fleet :=
  match (s.devices.cells d.deviceId).committed with
  | none => s
  | some dev =>
    let open_ := s.commands.select none fun _ r =>
      r.deviceId == d.deviceId && r.type == d.type && r.outstanding
    if dev.tenantId ≠ d.tenantId ∨ open_ ≠ [] then s
    else match s.commands.insert outstandingKey none d.row with
      | .done commands =>
        if d.type = .uninstall then
          match s.updateDevice (fun i _ => i == d.deviceId) fun dev =>
            { dev with pendingCommand := some .uninstall } with
          | .done (_, devices) => { s with commands := commands, devices := devices }
          | _ => s
        else { s with commands := commands }
      | _ => s

end Fleet

/-! ## Steps -/

inductive FleetAction
  | enqueue (d : EnqueueData)
  /-- A connect, a heartbeat or a push: its claim. -/
  | drain (t deviceId : Nat) (kind : DrainKind) (cmdqueue : Bool) (now : Int)
  /-- The next frame is written, or the response returned. -/
  | write (t : Nat)
  /-- The channel is closed: the next frame is not written. -/
  | writeFail (t : Nat)
  /-- The payload of a resync could not be built (the row is failed by `fail`). -/
  | skip (t : Nat)
  | select (t : Nat)
  | requeue (t : Nat)
  /-- An error ends the drain. -/
  | die (t : Nat)
  | fail (id deviceId : Nat) (now : Int) (result : String)
  | ack (deviceId : Nat) (id : List Char) (status : AckStatus) (result : Option String) (now : Int)
  | sweepExpired (now : Int)
  | sweepTimedOut (now : Int)
  | deviceWrite (n : Nat)
  /-- An error of the device update of `requeue` or `ack`. -/
  | loseWrite (n : Nat)
  /-- The uninstall of a whole tenant, another legacy command, or its delivery. -/
  | setPending (deviceId : Nat) (command : Option PendingCommand)
  | cleanupSelect (cutoff : Int)
  | cleanupDelete (deviceId : Nat)

/-- A statement on `agent_commands` that commits at once; a violation is an error of its caller. -/
def Fleet.alone (s : Fleet) (u : CommandUpdate) (after : List ClaimedRow → Fleet → Fleet) : Fleet :=
  match u.exec s.commands none with
  | .done (ids, commands) =>
    let s' := { s with commands := commands }
    after (s'.returning ids) s'
  | _ => s

/-- The rows that `requeueLegacyUninstall` selects. -/
def Fleet.legacyRows (s : Fleet) (deviceId : Nat) (since : Int) : List ClaimedRow :=
  s.returning (s.commands.select none fun _ r => r.deviceId == deviceId && r.type == .uninstall &&
    r.status == .sent && r.legacy && r.sentAt.any (since ≤ ·))

/-- A failed uninstall, as its device reports it. -/
def Fleet.reports (s : Fleet) (deviceId : Nat) (id : List Char) (status : AckStatus) :
    List UninstallEvent :=
  match ackId id with
  | some i => match (s.commands.cells i).committed with
    | some r =>
      if status = .failed ∧ r.deviceId = deviceId ∧ r.type = .uninstall then
        [.reportedFailed deviceId i]
      else []
    | none => []
  | none => []

/-- One step. -/
def fleetStep (s : Fleet) : FleetAction → Option Fleet
  | .enqueue d => some (s.enqueue d)
  | .drain t deviceId kind cmdqueue now =>
    if s.drains t = none then
      -- only the hub sends command frames
      let cmdqueue := cmdqueue && decide (kind = .hub)
      let claimed := s.claim deviceId cmdqueue now
      some { (claimed.2.setDrain t (Drain.start kind deviceId cmdqueue claimed.1)) with
        started := t :: s.started }
    else none
  | .write t => match s.drains t with
    | some (.frames d (row :: rows) unsent) => some { (s.setDrain t
        (Drain.settle (.frames d rows unsent))) with
          log := s.log ++ if row.isUninstall then [.written d row.id] else [] }
    | some (.config _ d rows) => some { (s.setDrain t none) with
        log := s.log ++ (rows.filter (·.isUninstall)).map fun row => .written d row.id }
    | _ => none
  | .writeFail t => match s.drains t with
    | some (.frames d (row :: rows) unsent) =>
      some (s.setDrain t (Drain.settle (.frames d rows (unsent ++ [row]))))
    | some (.config .hub d rows) => some (s.setDrain t (some (.requeuing d rows)))
    | some (.config (.pushFrame since) d rows) => some (s.setDrain t (some (.selecting d since rows)))
    | _ => none
  | .skip t => match s.drains t with
    | some (.frames d (row :: rows) unsent) =>
      if row.row.type = .firewallResync then some (s.setDrain t (Drain.settle (.frames d rows unsent)))
      else none
    | _ => none
  | .select t => match s.drains t with
    | some (.selecting d since _) => some (s.setDrain t (some (.requeuing d (s.legacyRows d since))))
    | _ => none
  | .requeue t => match s.drains t with
    | some (.requeuing _ rows) =>
      some ((s.alone (.requeue (rows.map (·.id))) fun back s' => { s' with
        deviceWrites := s'.deviceWrites ++
          (back.filter (·.isUninstall)).map fun r => .restorePending r.row.deviceId }).setDrain t none)
    | _ => none
  | .die t => match s.drains t with
    | some _ => some (s.setDrain t none)
    | none => none
  | .fail id deviceId now result => some (s.alone (.fail id deviceId now result) fun _ s' => s')
  | .ack deviceId id status result now => some (match ackId id with
    | none => s
    | some i => { (s.alone (.ack i deviceId status result now) fun rows s' => { s' with
        deviceWrites := s'.deviceWrites ++
          if status = .failed ∧ rows.any (·.isUninstall) then [.clearCommanded deviceId] else [] })
      with log := s.log ++ s.reports deviceId id status })
  | .sweepExpired now => some (s.alone (.expire now) fun _ s' => s')
  | .sweepTimedOut now => some (s.alone (.timeOut now) fun _ s' => s')
  | .deviceWrite n => match s.deviceWrites[n]? with
    | none => none
    | some w => match s.updateDevice (fun i _ => i == w.deviceId) w.apply with
      | .done (_, devices) => some { s with
          devices := devices
          deviceWrites := s.deviceWrites.eraseIdx n }
      | _ => none
  | .loseWrite n => some { s with deviceWrites := s.deviceWrites.eraseIdx n }
  | .setPending deviceId command =>
    match s.updateDevice (fun i _ => i == deviceId) fun dev =>
      { dev with pendingCommand := command } with
    | .done (_, devices) => some { s with devices := devices }
    | _ => none
  | .cleanupSelect cutoff => some { s with
      selected := s.selected ++ s.devices.select none fun _ dev =>
        dev.uninstallCommandedAt.any (· < cutoff) }
  | .cleanupDelete deviceId =>
    if deviceId ∈ s.selected ∧ (s.devices.cells deviceId).committed.isSome then some { s with
      devices := s.devices.delete fun i _ => i == deviceId
      commands := s.commands.delete fun _ r => r.deviceId == deviceId
      selected := s.selected.erase deviceId
      log := s.log ++ [.deleted deviceId] }
    else none

/-- The device got an uninstall and has not reported it as failed since. -/
def Delivered (log : List UninstallEvent) (deviceId : Nat) : Prop :=
  ∃ row pre post, log = pre ++ .written deviceId row :: post ∧
    .reportedFailed deviceId row ∉ post

/-! ## The condition -/

/-- A drain of the device holds an uninstall, or a device update is due: its
`uninstall_commanded_at` is not settled. -/
def Fleet.unsettled (s : Fleet) (deviceId : Nat) : Bool :=
  (s.started.any fun t => (s.drains t).any fun drain =>
    drain.deviceId == deviceId && drain.holdsUninstall) ||
  s.deviceWrites.any (·.deviceId == deviceId)

/-- The condition. No error ends a drain that holds an uninstall, nor the device update of a requeue
or an acknowledgement; the requeue finds the uninstalls it is for as they were sent, and no other one
outstanding; a failure report finds its row open and is recorded; and the cleanup job deletes a device whose
`uninstall_commanded_at` is settled and still set. -/
def careful (s : Fleet) : FleetAction → Bool
  | .die t => (s.drains t).all (!·.holdsUninstall)
  | .loseWrite _ => false
  | .select t => match s.drains t with
    | some (.selecting d since rows) => rows.all fun row =>
        !row.isUninstall || (s.legacyRows d since).any (·.id == row.id)
    | _ => true
  | .requeue t => match s.drains t with
    | some (.requeuing _ rows) =>
      (rows.all fun row => !row.isUninstall || (s.commands.cells row.id).committed.any
        ((CommandUpdate.requeue (rows.map (·.id))).cond row.id)) &&
      match (CommandUpdate.requeue (rows.map (·.id))).exec s.commands none with
      | .done _ => true
      | _ => false
    | _ => true
  | .ack deviceId id status result now => match ackId id with
    | some i => s.reports deviceId id status == [] ||
      ((s.commands.cells i).committed.any
        ((CommandUpdate.ack i deviceId status result now).cond i) &&
      match (CommandUpdate.ack i deviceId status result now).exec s.commands none with
      | .done _ => true
      | _ => false)
    | none => true
  | .cleanupDelete deviceId => !s.unsettled deviceId &&
      (s.devices.cells deviceId).committed.any (·.uninstallCommandedAt.isSome)
  | _ => true

/-! ## Rows keep their device and type -/

/-- Rows that were there keep their device and type. -/
structure Preserves (c c' : Store AgentCommandRow) : Prop where
  seq_le : c.seq ≤ c'.seq
  owner : ∀ i < c.seq, ∀ r', (c'.cells i).committed = some r' → ∃ r,
    (c.cells i).committed = some r ∧ r.deviceId = r'.deviceId ∧ r.type = r'.type

theorem Preserves.refl (c : Store AgentCommandRow) : Preserves c c :=
  ⟨Nat.le_refl _, fun _ _ r hr => ⟨r, hr, rfl, rfl⟩⟩

theorem Preserves.trans {c c' c'' : Store AgentCommandRow} (h : Preserves c c')
    (h' : Preserves c' c'') : Preserves c c'' := by
  refine ⟨Nat.le_trans h.seq_le h'.seq_le, ?_⟩
  intro i hi r'' hr''
  obtain ⟨r', hr', hd', ht'⟩ := h'.owner i (Nat.lt_of_lt_of_le hi h.seq_le) r'' hr''
  obtain ⟨r, hr, hd, ht⟩ := h.owner i hi r' hr'
  exact ⟨r, hr, hd.trans hd', ht.trans ht'⟩

section exec
variable {u : CommandUpdate} {ids : List Nat} {c c' : Store AgentCommandRow}
  (hexec : u.exec c none = .done (ids, c'))
include hexec

theorem exec_none_mem {i : Nat} : i ∈ ids ↔ ∃ r, (c.cells i).committed = some r ∧
    u.cond i r = true := by
  rw [mem_update hexec]
  simp only [Cell.view_none]

theorem exec_none_set {i : Nat} {r : AgentCommandRow} (hi : i ∈ ids)
    (hr : (c.cells i).committed = some r) : (c'.cells i).committed = some (u.set r) := by
  rw [cells_update hexec hi ((Cell.view_none _).trans hr), Cell.committed_write_none]

theorem exec_none_preserves : Preserves c c' := by
  refine ⟨Nat.le_of_eq (seq_update hexec).symm, ?_⟩
  intro i _ r' hr'
  by_cases hi : i ∈ ids
  · obtain ⟨r, hr, -⟩ := (exec_none_mem hexec).mp hi
    rw [exec_none_set hexec hi hr] at hr'
    rw [← Option.some.inj hr']
    exact ⟨r, hr, (u.set_deviceId r).symm, (u.set_type r).symm⟩
  · rw [(update_writes hexec).same i hi] at hr'
    exact ⟨r', hr', rfl, rfl⟩

end exec

theorem insert_none_preserves {c c' : Store AgentCommandRow} {r : AgentCommandRow}
    (h : c.insert outstandingKey none r = .done c') : Preserves c c' := by
  obtain rfl := insert_eq h
  refine ⟨Nat.le_succ _, ?_⟩
  intro i hi r' hr'
  have hold : (c.append none r).cells i = c.cells i := if_neg (Nat.ne_of_lt hi)
  rw [hold] at hr'
  exact ⟨r', hr', rfl, rfl⟩

theorem delete_preserves (c : Store AgentCommandRow) (p : Nat → AgentCommandRow → Bool) :
    Preserves c (c.delete p) := by
  refine ⟨Nat.le_refl _, ?_⟩
  intro i _ r' hr'
  have hr' : (if (c.cells i).committed.any (p i) then Cell.empty else c.cells i).committed =
      some r' := hr'
  split at hr'
  · contradiction
  · exact ⟨r', hr', rfl, rfl⟩

theorem alone_preserves (s : Fleet) (u : CommandUpdate) (after : List ClaimedRow → Fleet → Fleet)
    (hafter : ∀ rows s', (after rows s').commands = s'.commands) :
    Preserves s.commands (s.alone u after).commands := by
  unfold Fleet.alone
  split
  · rename_i ids commands hexec
    rw [hafter]
    exact exec_none_preserves hexec
  · exact Preserves.refl _

theorem mem_returning {s : Fleet} {ids : List Nat} {p : ClaimedRow} :
    p ∈ s.returning ids ↔ p.id ∈ ids ∧ (s.commands.cells p.id).committed = some p.row := by
  rw [Fleet.returning, List.mem_filterMap]
  constructor
  · rintro ⟨i, hi, hp⟩
    obtain ⟨r, hr, rfl⟩ := Option.map_eq_some_iff.mp hp
    exact ⟨hi, hr⟩
  · rintro ⟨hi, hr⟩
    exact ⟨p.id, hi, by rw [hr]; rfl⟩

/-! ## What a claim returns -/

theorem claimInsert_preserves {c : ClaimData} {commands commands' : Store AgentCommandRow}
    (h : Fleet.claimInsert c commands = .done commands') : Preserves commands commands' := by
  unfold Fleet.claimInsert at h
  dsimp only at h
  split at h
  · exact insert_none_preserves h
  · rw [Outcome.done.inj h]
    exact Preserves.refl _

theorem claimSend_spec {c : ClaimData} {commands commands' : Store AgentCommandRow} {ids : List Nat}
    (h : Fleet.claimSend c commands = .done (ids, commands')) : Preserves commands commands' ∧
      ∀ i ∈ ids, ∀ r, (commands'.cells i).committed = some r → r.deviceId = c.deviceId := by
  unfold Fleet.claimSend at h
  split at h
  · refine ⟨exec_none_preserves h, ?_⟩
    intro i hi r' hr'
    obtain ⟨r, hr, hcond⟩ := (exec_none_mem h).mp hi
    rw [exec_none_set h hi hr] at hr'
    rw [← Option.some.inj hr', CommandUpdate.set_deviceId]
    have hmem := List.mem_of_mem_take (List.contains_iff_mem.mp hcond)
    rw [List.mem_insertionSort] at hmem
    obtain ⟨r0, hr0, hsel⟩ := mem_select.mp hmem
    rw [Cell.view_none, hr] at hr0
    rw [Bool.and_eq_true, beq_iff_eq] at hsel
    rw [Option.some.inj hr0]
    exact hsel.1
  · refine ⟨exec_none_preserves h, ?_⟩
    intro i hi r' hr'
    obtain ⟨r, hr, hcond⟩ := (exec_none_mem h).mp hi
    rw [exec_none_set h hi hr] at hr'
    rw [← Option.some.inj hr', CommandUpdate.set_deviceId]
    simp only [CommandUpdate.cond, Bool.and_eq_true, beq_iff_eq] at hcond
    exact hcond.1.1

theorem updateDevice_committed {s : Fleet} {d : Nat} {f : AgentDeviceRow → AgentDeviceRow}
    {ids : List Nat} {devices : Store AgentDeviceRow}
    (h : s.updateDevice (fun i _ => i == d) f = .done (ids, devices)) (i : Nat) :
    (devices.cells i).committed =
      if i = d then ((s.devices.cells i).committed).map f else (s.devices.cells i).committed := by
  have hmem : i ∈ ids ↔ i = d ∧ (s.devices.cells i).committed.isSome := by
    rw [mem_update h, Cell.view_none, Option.isSome_iff_exists]
    constructor
    · rintro ⟨r, hr, hid⟩
      exact ⟨by simpa using hid, r, hr⟩
    · rintro ⟨hid, r, hr⟩
      exact ⟨r, hr, by simpa using hid⟩
  by_cases hi : i ∈ ids
  · obtain ⟨hid, hsome⟩ := hmem.mp hi
    obtain ⟨dev, hdev⟩ := Option.isSome_iff_exists.mp hsome
    rw [cells_update h hi ((Cell.view_none _).trans hdev), Cell.committed_write_none, if_pos hid,
      hdev, Option.map_some]
  · rw [(update_writes h).same i hi]
    split
    · rename_i hid
      have hnone : (s.devices.cells i).committed = none := by
        by_contra hsome
        exact hi (hmem.mpr ⟨hid, Option.isSome_iff_ne_none.mpr hsome⟩)
      rw [hnone]
      rfl
    · rfl

/-- What a claim does: its rows are of the device, the rest of the rows keep their owners, and
`uninstall_commanded_at` changes for the device only, and only with an uninstall among the rows. -/
structure ClaimSpec (s : Fleet) (deviceId : Nat) (rows : List ClaimedRow) (s' : Fleet) : Prop where
  preserves : Preserves s.commands s'.commands
  claimed : ∀ p ∈ rows, (s'.commands.cells p.id).committed = some p.row ∧ p.row.deviceId = deviceId
  frame : s'.deviceWrites = s.deviceWrites ∧ s'.drains = s.drains ∧ s'.started = s.started ∧
    s'.selected = s.selected ∧ s'.log = s.log
  devices : ∀ i dev', (s'.devices.cells i).committed = some dev' →
    dev'.uninstallCommandedAt.isSome = true →
      (∃ dev, (s.devices.cells i).committed = some dev ∧ dev.uninstallCommandedAt.isSome = true) ∨
        i = deviceId ∧ rows.any (·.isUninstall) = true

theorem claimSpec_refl (s : Fleet) (deviceId : Nat) : ClaimSpec s deviceId [] s where
  preserves := Preserves.refl _
  claimed := by
    intro p hp
    contradiction
  frame := ⟨rfl, rfl, rfl, rfl, rfl⟩
  devices := fun _ dev hdev hsome => .inl ⟨dev, hdev, hsome⟩

theorem claim_spec (s : Fleet) (deviceId : Nat) (cmdqueue : Bool) (now : Int) :
    ClaimSpec s deviceId (s.claim deviceId cmdqueue now).1 (s.claim deviceId cmdqueue now).2 := by
  unfold Fleet.claim
  split
  · exact claimSpec_refl s deviceId
  · rename_i dev hdev
    dsimp only
    split
    · exact claimSpec_refl s deviceId
    · split
      · rename_i expired hexpire
        split
        · rename_i inserted hinsert
          split
          · rename_i ids commands hsend
            split
            · rename_i devices hdevice
              obtain ⟨hpres, hids⟩ := claimSend_spec hsend
              refine ⟨?_, ?_, ⟨rfl, rfl, rfl, rfl, rfl⟩, ?_⟩
              · exact ((exec_none_preserves hexpire).trans (claimInsert_preserves hinsert)).trans hpres
              · intro p hp
                obtain ⟨hpi, hpr⟩ := mem_returning.mp hp
                exact ⟨hpr, hids p.id hpi p.row hpr⟩
              · intro i dev' hdev' hsome
                unfold Fleet.claimDevice at hdevice
                split at hdevice
                · rename_i huninstall
                  by_cases hi : i = deviceId
                  · exact .inr ⟨hi, huninstall⟩
                  · split at hdevice
                    · rename_i hupd
                      rw [← Outcome.done.inj hdevice, updateDevice_committed hupd, if_neg hi] at hdev'
                      exact .inl ⟨dev', hdev', hsome⟩
                    · contradiction
                    · contradiction
                · rw [← Outcome.done.inj hdevice] at hdev'
                  exact .inl ⟨dev', hdev', hsome⟩
            · exact claimSpec_refl s deviceId
          · exact claimSpec_refl s deviceId
        · exact claimSpec_refl s deviceId
      · exact claimSpec_refl s deviceId

/-! ## The invariant -/

section setDrain
variable {s : Fleet} {t u : Nat} {next : Option Drain}

theorem drains_setDrain_self : (s.setDrain t next).drains t = next := if_pos rfl

theorem drains_setDrain_ne (h : u ≠ t) : (s.setDrain t next).drains u = s.drains u := if_neg h

theorem drains_setDrain_some {d : Drain} (h : (s.setDrain t next).drains u = some d) :
    u = t ∧ next = some d ∨ u ≠ t ∧ s.drains u = some d := by
  by_cases hut : u = t
  · rw [hut, drains_setDrain_self] at h
    exact .inl ⟨hut, h⟩
  · rw [drains_setDrain_ne hut] at h
    exact .inr ⟨hut, h⟩

end setDrain

/-- A device whose `uninstall_commanded_at` is set got its uninstall, or is not settled. -/
structure FleetInv (s : Fleet) : Prop where
  started : ∀ t drain, s.drains t = some drain → t ∈ s.started
  rows : ∀ t drain, s.drains t = some drain → ∀ p ∈ drain.rows, p.id < s.commands.seq ∧
    ∀ r, (s.commands.cells p.id).committed = some r →
      r.deviceId = drain.deviceId ∧ r.type = p.row.type
  safe : ∀ d dev, (s.devices.cells d).committed = some dev →
    dev.uninstallCommandedAt.isSome = true → s.unsettled d = true ∨ Delivered s.log d
  deleted : ∀ pre d post, s.log = pre ++ .deleted d :: post → Delivered pre d

theorem unsettled_of_drain {s : Fleet} {t d : Nat} {drain : Drain} (ht : t ∈ s.started)
    (hdrain : s.drains t = some drain) (hd : drain.deviceId = d)
    (hholds : drain.holdsUninstall = true) : s.unsettled d = true := by
  rw [Fleet.unsettled, Bool.or_eq_true, List.any_eq_true]
  refine .inl ⟨t, ht, ?_⟩
  rw [hdrain, Option.any_some, hholds, hd, beq_self_eq_true]
  rfl

theorem unsettled_of_write {s : Fleet} {d : Nat} {w : DeviceWrite} (hw : w ∈ s.deviceWrites)
    (hd : w.deviceId = d) : s.unsettled d = true := by
  rw [Fleet.unsettled, Bool.or_eq_true, List.any_eq_true, List.any_eq_true]
  exact .inr ⟨w, hw, by simpa using hd⟩

theorem unsettled_cases {s : Fleet} {d : Nat} (h : s.unsettled d = true) :
    (∃ t ∈ s.started, ∃ drain, s.drains t = some drain ∧ drain.deviceId = d ∧
      drain.holdsUninstall = true) ∨ ∃ w ∈ s.deviceWrites, w.deviceId = d := by
  rw [Fleet.unsettled, Bool.or_eq_true, List.any_eq_true, List.any_eq_true] at h
  rcases h with ⟨t, ht, h⟩ | ⟨w, hw, hd⟩
  · rw [Option.any_eq_true] at h
    obtain ⟨drain, hdrain, h⟩ := h
    rw [Bool.and_eq_true, beq_iff_eq] at h
    exact .inl ⟨t, ht, drain, hdrain, h⟩
  · exact .inr ⟨w, hw, by simpa using hd⟩

/-- What is written stays written under events that report no failure of the device. -/
theorem Delivered.append {log l : List UninstallEvent} {d : Nat} (h : Delivered log d)
    (hl : ∀ i, .reportedFailed d i ∉ l) : Delivered (log ++ l) d := by
  obtain ⟨i, pre, post, rfl, hpost⟩ := h
  refine ⟨i, pre, post ++ l, by simp, ?_⟩
  rw [List.mem_append]
  rintro (hmem | hmem)
  · exact hpost hmem
  · exact hl i hmem

theorem delivered_of_written {log l : List UninstallEvent} {d i : Nat} (h : .written d i ∈ l)
    (hl : ∀ j, .reportedFailed d j ∉ l) : Delivered (log ++ l) d := by
  obtain ⟨pre, post, rfl⟩ := List.append_of_mem h
  refine ⟨i, log ++ pre, post, by simp, ?_⟩
  intro hmem
  exact hl i (List.mem_append_right _ (List.mem_cons_of_mem _ hmem))

theorem deleted_append {log l : List UninstallEvent}
    (h : ∀ pre d post, log = pre ++ .deleted d :: post → Delivered pre d)
    (hl : ∀ d, .deleted d ∉ l) (pre : List UninstallEvent) (d : Nat) (post : List UninstallEvent)
    (heq : log ++ l = pre ++ .deleted d :: post) : Delivered pre d := by
  rcases List.append_eq_append_iff.mp heq with ⟨mid, -, hl'⟩ | ⟨mid, hlog, hcons⟩
  · exact absurd (hl' ▸ List.mem_append_right mid List.mem_cons_self) (hl d)
  · cases mid with
    | nil => exact absurd (by rw [← List.nil_append l, ← hcons]; exact List.mem_cons_self) (hl d)
    | cons e mid =>
      obtain ⟨rfl, -⟩ := List.cons.inj (hcons.trans List.cons_append)
      exact h pre d mid hlog

section steps
variable {s s' : Fleet}

theorem FleetInv.rows_preserves (h : FleetInv s) {c' : Store AgentCommandRow}
    (hpres : Preserves s.commands c') {t : Nat} {drain : Drain} (ht : s.drains t = some drain)
    (p : ClaimedRow) (hp : p ∈ drain.rows) : p.id < c'.seq ∧
      ∀ r, (c'.cells p.id).committed = some r →
        r.deviceId = drain.deviceId ∧ r.type = p.row.type := by
  obtain ⟨hlt, hrow⟩ := h.rows t drain ht p hp
  refine ⟨Nat.lt_of_lt_of_le hlt hpres.seq_le, ?_⟩
  intro r' hr'
  obtain ⟨r, hr, hd, hty⟩ := hpres.owner p.id hlt r' hr'
  rw [← hd, ← hty]
  exact hrow r hr

theorem FleetInv.transfer (h : FleetInv s) (hpres : Preserves s.commands s'.commands)
    (hdrains : s'.drains = s.drains) (hstarted : s'.started = s.started) (hlog : s'.log = s.log)
    (hwrites : ∀ w ∈ s.deviceWrites, w ∈ s'.deviceWrites)
    (hdevices : ∀ i dev', (s'.devices.cells i).committed = some dev' →
      dev'.uninstallCommandedAt.isSome = true →
        ∃ dev, (s.devices.cells i).committed = some dev ∧ dev.uninstallCommandedAt.isSome = true) :
    FleetInv s' := by
  have hstarted' : ∀ t drain, s'.drains t = some drain → t ∈ s'.started := by
    rw [hdrains, hstarted]
    exact h.started
  refine ⟨hstarted', ?_, ?_, ?_⟩
  · rw [hdrains]
    intro t drain ht p hp
    exact h.rows_preserves hpres ht p hp
  · intro d dev' hdev' hsome
    obtain ⟨dev, hdev, hsome⟩ := hdevices d dev' hdev' hsome
    rcases h.safe d dev hdev hsome with hun | hdel
    · left
      rcases unsettled_cases hun with ⟨t, ht, drain, hdrain, hd, hholds⟩ | ⟨w, hw, hd⟩
      · exact unsettled_of_drain (hstarted ▸ ht) (hdrains ▸ hdrain) hd hholds
      · exact unsettled_of_write (hwrites w hw) hd
    · right
      rw [hlog]
      exact hdel
  · rw [hlog]
    exact h.deleted

/-- A drain moves on: an uninstall it held it still holds, or has written. -/
theorem FleetInv.moveDrain (h : FleetInv s) {t : Nat} {drain : Drain} {next : Option Drain}
    {l : List UninstallEvent} (ht : s.drains t = some drain)
    (hnext : ∀ d', next = some d' → d'.deviceId = drain.deviceId ∧ ∀ p ∈ d'.rows,
      p.id < s.commands.seq ∧ ∀ r, (s.commands.cells p.id).committed = some r →
        r.deviceId = drain.deviceId ∧ r.type = p.row.type)
    (hkeeps : drain.holdsUninstall = true → (∃ d', next = some d' ∧ d'.holdsUninstall = true) ∨
      Delivered (s.log ++ l) drain.deviceId)
    (hfailed : ∀ d i, .reportedFailed d i ∉ l) (hdel : ∀ d, .deleted d ∉ l) :
    FleetInv { (s.setDrain t next) with log := s.log ++ l } := by
  have hstarted' : ∀ u d', (s.setDrain t next).drains u = some d' → u ∈ s.started := by
    intro u d' hu
    rcases drains_setDrain_some hu with ⟨rfl, -⟩ | ⟨-, hu⟩
    · exact h.started u drain ht
    · exact h.started u d' hu
  refine ⟨hstarted', ?_, ?_, ?_⟩
  · intro u d' hu p hp
    rcases drains_setDrain_some hu with ⟨-, hd'⟩ | ⟨-, hu⟩
    · obtain ⟨hdevice, hrows⟩ := hnext d' hd'
      rw [hdevice]
      exact hrows p hp
    · exact h.rows u d' hu p hp
  · intro d dev hdev hsome
    rcases h.safe d dev hdev hsome with hun | hdelivered
    · rcases unsettled_cases hun with ⟨u, hstarted, d', hu, hd, hholds⟩ | ⟨w, hw, hd⟩
      · by_cases hut : u = t
        · rw [hut] at hstarted
          rw [hut, ht] at hu
          obtain rfl := Option.some.inj hu
          rcases hkeeps hholds with ⟨d'', hd'', hholds'⟩ | hdelivered
          · exact .inl (unsettled_of_drain hstarted (drains_setDrain_self.trans hd'')
              ((hnext d'' hd'').1.trans hd) hholds')
          · exact .inr (hd ▸ hdelivered)
        · exact .inl (unsettled_of_drain hstarted ((drains_setDrain_ne hut).trans hu) hd hholds)
      · exact .inl (unsettled_of_write hw hd)
    · exact .inr (hdelivered.append (hfailed d))
  · exact deleted_append h.deleted hdel

theorem FleetInv.moveDrain_quiet (h : FleetInv s) {t : Nat} {drain : Drain} {next : Option Drain}
    (ht : s.drains t = some drain)
    (hnext : ∀ d', next = some d' → d'.deviceId = drain.deviceId ∧ ∀ p ∈ d'.rows,
      p.id < s.commands.seq ∧ ∀ r, (s.commands.cells p.id).committed = some r →
        r.deviceId = drain.deviceId ∧ r.type = p.row.type)
    (hkeeps : drain.holdsUninstall = true → ∃ d', next = some d' ∧ d'.holdsUninstall = true) :
    FleetInv (s.setDrain t next) := by
  have hmove := h.moveDrain (l := []) ht hnext (fun hholds => .inl (hkeeps hholds))
    (fun _ _ => List.not_mem_nil) fun _ => List.not_mem_nil
  rw [List.append_nil] at hmove
  exact hmove

theorem settle_spec (drain : Drain) : (drain.settle = none ∧ drain.rows = []) ∨
    ∃ d', drain.settle = some d' ∧ d'.deviceId = drain.deviceId ∧ d'.rows = drain.rows := by
  unfold Drain.settle
  split
  · exact .inl ⟨rfl, rfl⟩
  · exact .inr ⟨_, rfl, rfl, rfl⟩
  · exact .inr ⟨_, rfl, rfl, rfl⟩

theorem settle_some {drain d' : Drain} (h : drain.settle = some d') :
    d'.deviceId = drain.deviceId ∧ d'.rows = drain.rows := by
  rcases settle_spec drain with ⟨hnone, -⟩ | ⟨d'', hsome, hdevice, hrows⟩
  · rw [hnone] at h
    contradiction
  · rw [hsome] at h
    rw [← Option.some.inj h]
    exact ⟨hdevice, hrows⟩

theorem settle_holds {drain : Drain} (h : drain.holdsUninstall = true) :
    ∃ d', drain.settle = some d' ∧ d'.holdsUninstall = true := by
  rcases settle_spec drain with ⟨-, hnil⟩ | ⟨d', hsome, -, hrows⟩
  · rw [Drain.holdsUninstall, hnil] at h
    contradiction
  · exact ⟨d', hsome, by rw [Drain.holdsUninstall, hrows]; exact h⟩

theorem FleetInv.rows_settle (h : FleetInv s) {t : Nat} {drain : Drain} (drain' : Drain)
    (ht : s.drains t = some drain) (hdevice : drain'.deviceId = drain.deviceId)
    (hsub : ∀ p ∈ drain'.rows, p ∈ drain.rows) (d' : Drain) (hd' : drain'.settle = some d') :
    d'.deviceId = drain.deviceId ∧ ∀ p ∈ d'.rows, p.id < s.commands.seq ∧
      ∀ r, (s.commands.cells p.id).committed = some r →
        r.deviceId = drain.deviceId ∧ r.type = p.row.type := by
  obtain ⟨hdev', hrows'⟩ := settle_some hd'
  refine ⟨hdev'.trans hdevice, ?_⟩
  intro p hp
  exact h.rows t drain ht p (hsub p (hrows' ▸ hp))

end steps

section actions
variable {s s' : Fleet}

theorem fleetInv_enqueue (h : FleetInv s) (d : EnqueueData) : FleetInv (s.enqueue d) := by
  unfold Fleet.enqueue
  split
  · exact h
  · dsimp only
    split
    · exact h
    · split
      · rename_i commands hins
        split
        · split
          · rename_i ids devices hupd
            refine h.transfer (insert_none_preserves hins) rfl rfl rfl (fun _ hw => hw) ?_
            intro i dev' hdev' hsome
            have hdev' : (devices.cells i).committed = some dev' := hdev'
            rw [updateDevice_committed hupd] at hdev'
            split at hdev'
            · obtain ⟨dev, hdev, rfl⟩ := Option.map_eq_some_iff.mp hdev'
              exact ⟨dev, hdev, hsome⟩
            · exact ⟨dev', hdev', hsome⟩
          · exact h
        · exact h.transfer (insert_none_preserves hins) rfl rfl rfl (fun _ hw => hw)
            fun _ dev hdev hsome => ⟨dev, hdev, hsome⟩
      · exact h

theorem fleetInv_alone (h : FleetInv s) (u : CommandUpdate) :
    FleetInv (s.alone u fun _ s' => s') := by
  have hpres := alone_preserves s u (fun _ s' => s') fun _ _ => rfl
  unfold Fleet.alone at hpres ⊢
  split
  · rename_i ids commands hexec
    rw [hexec] at hpres
    exact h.transfer hpres rfl rfl rfl (fun _ hw => hw) fun _ dev hdev hsome => ⟨dev, hdev, hsome⟩
  · exact h

theorem fleetInv_drain (h : FleetInv s) {t deviceId : Nat} {kind : DrainKind} {cmdqueue : Bool}
    {now : Int} (ht : s.drains t = none) :
    FleetInv { ((s.claim deviceId cmdqueue now).2.setDrain t
      (Drain.start kind deviceId cmdqueue (s.claim deviceId cmdqueue now).1)) with
        started := t :: s.started } := by
  have hclaim := claim_spec s deviceId cmdqueue now
  generalize s.claim deviceId cmdqueue now = claimed at hclaim
  obtain ⟨rows, s1⟩ := claimed
  obtain ⟨hwrites, hdrains, hstarted, -, hlog⟩ := hclaim.frame
  dsimp only at hclaim hwrites hdrains hstarted hlog ⊢
  have hstart : ∀ d', Drain.start kind deviceId cmdqueue rows = some d' →
      d'.deviceId = deviceId ∧ d'.rows = rows := by
    intro d' hd'
    unfold Drain.start at hd'
    split at hd'
    · contradiction
    · split at hd'
      · rw [← Option.some.inj hd']
        exact ⟨rfl, List.append_nil rows⟩
      · rw [← Option.some.inj hd']
        exact ⟨rfl, rfl⟩
  have hget : ∀ u d', (s1.setDrain t (Drain.start kind deviceId cmdqueue rows)).drains u = some d' →
      u = t ∧ Drain.start kind deviceId cmdqueue rows = some d' ∨
        u ≠ t ∧ s.drains u = some d' := by
    intro u d' hu
    rw [← hdrains]
    exact drains_setDrain_some hu
  have hstarted' : ∀ u d', (s1.setDrain t (Drain.start kind deviceId cmdqueue rows)).drains u =
      some d' → u ∈ t :: s.started := by
    intro u d' hu
    rcases hget u d' hu with ⟨rfl, -⟩ | ⟨-, hu⟩
    · exact List.mem_cons_self
    · exact List.mem_cons_of_mem t (h.started u d' hu)
  refine ⟨hstarted', ?_, ?_, ?_⟩
  · intro u d' hu p hp
    show p.id < s1.commands.seq ∧ ∀ r, (s1.commands.cells p.id).committed = some r → _
    rcases hget u d' hu with ⟨-, hd'⟩ | ⟨-, hu⟩
    · obtain ⟨hdevice, hrows⟩ := hstart d' hd'
      obtain ⟨hcommitted, hrow⟩ := hclaim.claimed p (hrows ▸ hp)
      refine ⟨Store.lt_seq_of_committed hcommitted, ?_⟩
      intro r hr
      rw [hcommitted] at hr
      rw [← Option.some.inj hr, hdevice]
      exact ⟨hrow, rfl⟩
    · exact h.rows_preserves hclaim.preserves hu p hp
  · intro d dev' hdev' hsome
    show _ ∨ Delivered s1.log d
    rw [hlog]
    rcases hclaim.devices d dev' hdev' hsome with ⟨dev, hdev, hsome⟩ | ⟨rfl, huninstall⟩
    · rcases h.safe d dev hdev hsome with hun | hdelivered
      · left
        rcases unsettled_cases hun with ⟨u, hmem, d', hu, hd, hholds⟩ | ⟨w, hw, hd⟩
        · have hut : u ≠ t := by
            intro hut
            rw [hut, ht] at hu
            contradiction
          exact unsettled_of_drain (List.mem_cons_of_mem t hmem)
            ((drains_setDrain_ne hut).trans (hdrains ▸ hu)) hd hholds
        · exact unsettled_of_write (hwrites ▸ hw) hd
      · exact .inr hdelivered
    · -- the claim returned an uninstall, and the drain holds it
      have hne : rows ≠ [] := by
        rintro rfl
        contradiction
      obtain ⟨d', hd'⟩ : ∃ d', Drain.start kind d cmdqueue rows = some d' := by
        unfold Drain.start
        rw [if_neg hne]
        split
        · exact ⟨_, rfl⟩
        · exact ⟨_, rfl⟩
      obtain ⟨hdevice, hrows⟩ := hstart d' hd'
      refine .inl (unsettled_of_drain List.mem_cons_self (drains_setDrain_self.trans hd') hdevice ?_)
      rw [Drain.holdsUninstall, hrows]
      exact huninstall
  · show ∀ pre d post, s1.log = _ → _
    rw [hlog]
    exact h.deleted

theorem fleetInv_write (h : FleetInv s) {t : Nat} (hs : fleetStep s (.write t) = some s') :
    FleetInv s' := by
  unfold fleetStep at hs
  dsimp only at hs
  split at hs
  · rename_i d row rows unsent ht
    rw [← Option.some.inj hs]
    refine h.moveDrain ht ?_ ?_ ?_ ?_
    · exact h.rows_settle (.frames d rows unsent) ht rfl fun p hp =>
        List.mem_cons_of_mem row hp
    · intro hholds
      by_cases hrow : row.isUninstall = true
      · right
        rw [if_pos hrow]
        refine delivered_of_written (i := row.id) (List.mem_singleton_self _) ?_
        simp
      · left
        apply settle_holds
        rw [Drain.holdsUninstall, Drain.rows, List.cons_append, List.any_cons,
          Bool.eq_false_of_not_eq_true hrow, Bool.false_or] at hholds
        exact hholds
    · intro d i
      split
      · simp
      · exact List.not_mem_nil
    · intro d
      split
      · simp
      · exact List.not_mem_nil
  · rename_i kind d rows ht
    rw [← Option.some.inj hs]
    refine h.moveDrain ht ?_ ?_ ?_ ?_
    · intro d' hd'
      contradiction
    · intro hholds
      right
      obtain ⟨row, hrow, huninstall⟩ := List.any_eq_true.mp hholds
      refine delivered_of_written (i := row.id) ?_ ?_
      · exact List.mem_map.mpr ⟨row, List.mem_filter.mpr ⟨hrow, huninstall⟩, rfl⟩
      · simp
    · simp
    · simp
  · contradiction

theorem fleetInv_writeFail (h : FleetInv s) {t : Nat} (hs : fleetStep s (.writeFail t) = some s') :
    FleetInv s' := by
  unfold fleetStep at hs
  dsimp only at hs
  split at hs
  · rename_i d row rows unsent ht
    rw [← Option.some.inj hs]
    have hperm : ∀ p, p ∈ (Drain.frames d rows (unsent ++ [row])).rows ↔
        p ∈ (Drain.frames d (row :: rows) unsent).rows := by
      intro p
      simp only [Drain.rows, List.mem_append, List.mem_cons, List.not_mem_nil]
      tauto
    refine h.moveDrain_quiet ht ?_ ?_
    · exact h.rows_settle _ ht rfl fun p hp => (hperm p).mp hp
    · intro hholds
      apply settle_holds
      obtain ⟨p, hp, huninstall⟩ := List.any_eq_true.mp hholds
      exact List.any_eq_true.mpr ⟨p, (hperm p).mpr hp, huninstall⟩
  · rename_i d rows ht
    rw [← Option.some.inj hs]
    refine h.moveDrain_quiet ht ?_ fun hholds => ⟨_, rfl, hholds⟩
    intro d' hd'
    rw [← Option.some.inj hd']
    have hrows := h.rows t _ ht
    exact ⟨rfl, hrows⟩
  · rename_i since d rows ht
    rw [← Option.some.inj hs]
    refine h.moveDrain_quiet ht ?_ fun hholds => ⟨_, rfl, hholds⟩
    intro d' hd'
    rw [← Option.some.inj hd']
    have hrows := h.rows t _ ht
    exact ⟨rfl, hrows⟩
  · contradiction

theorem fleetInv_skip (h : FleetInv s) {t : Nat} (hs : fleetStep s (.skip t) = some s') :
    FleetInv s' := by
  unfold fleetStep at hs
  dsimp only at hs
  split at hs
  · rename_i d row rows unsent ht
    split at hs
    · rename_i hresync
      rw [← Option.some.inj hs]
      refine h.moveDrain_quiet ht ?_ ?_
      · exact h.rows_settle (.frames d rows unsent) ht rfl fun p hp =>
          List.mem_cons_of_mem row hp
      · intro hholds
        apply settle_holds
        have hrow : row.isUninstall = false := by
          rw [ClaimedRow.isUninstall, hresync]
          rfl
        rw [Drain.holdsUninstall, Drain.rows, List.cons_append, List.any_cons, hrow,
          Bool.false_or] at hholds
        exact hholds
    · contradiction
  · contradiction

theorem mem_legacyRows {d : Nat} {since : Int} {p : ClaimedRow} (hp : p ∈ s.legacyRows d since) :
    (s.commands.cells p.id).committed = some p.row ∧ p.row.deviceId = d ∧
      p.row.type = .uninstall := by
  obtain ⟨hid, hrow⟩ := mem_returning.mp hp
  obtain ⟨r, hr, hcond⟩ := mem_select.mp hid
  rw [Cell.view_none, hrow] at hr
  simp only [Bool.and_eq_true, beq_iff_eq] at hcond
  rw [Option.some.inj hr]
  exact ⟨hrow.trans (by rw [Option.some.inj hr]), hcond.1.1.1.1, hcond.1.1.1.2⟩

theorem fleetInv_select (h : FleetInv s) {t : Nat} (hok : careful s (.select t) = true)
    (hs : fleetStep s (.select t) = some s') : FleetInv s' := by
  unfold fleetStep at hs
  dsimp only at hs
  split at hs
  · rename_i d since rows ht
    rw [← Option.some.inj hs]
    refine h.moveDrain_quiet ht ?_ ?_
    · intro d' hd'
      rw [← Option.some.inj hd']
      refine ⟨rfl, ?_⟩
      intro p hp
      obtain ⟨hrow, hdevice, -⟩ := mem_legacyRows hp
      refine ⟨Store.lt_seq_of_committed hrow, ?_⟩
      intro r hr
      rw [hrow] at hr
      rw [← Option.some.inj hr]
      exact ⟨hdevice, rfl⟩
    · intro hholds
      refine ⟨_, rfl, ?_⟩
      obtain ⟨p, hp, huninstall⟩ := List.any_eq_true.mp hholds
      simp only [careful, ht, List.all_eq_true] at hok
      have hfound := hok p hp
      rw [huninstall, Bool.not_true, Bool.false_or, List.any_eq_true] at hfound
      obtain ⟨q, hq, -⟩ := hfound
      refine List.any_eq_true.mpr ⟨q, hq, ?_⟩
      rw [ClaimedRow.isUninstall, (mem_legacyRows hq).2.2]
      rfl
  · contradiction

theorem fleetInv_requeue (h : FleetInv s) {t : Nat} (hok : careful s (.requeue t) = true)
    (hs : fleetStep s (.requeue t) = some s') : FleetInv s' := by
  unfold fleetStep at hs
  dsimp only at hs
  split at hs
  · rename_i d rows ht
    simp only [careful, ht, Bool.and_eq_true, List.all_eq_true] at hok
    obtain ⟨hfound, hexec⟩ := hok
    split at hexec
    · rename_i done hdone
      obtain ⟨ids, commands⟩ := done
      rw [← Option.some.inj hs, Fleet.alone, hdone]
      dsimp only
      generalize hback : Fleet.returning { s with commands := commands } ids = back
      have hpres := exec_none_preserves hdone
      have hstarted' : ∀ u d', (s.setDrain t none).drains u = some d' → u ∈ s.started := by
        intro u d' hu
        rcases drains_setDrain_some hu with ⟨-, hnone⟩ | ⟨-, hu⟩
        · contradiction
        · exact h.started u d' hu
      refine ⟨hstarted', ?_, ?_, h.deleted⟩
      · intro u d' hu p hp
        rcases drains_setDrain_some hu with ⟨-, hnone⟩ | ⟨-, hu⟩
        · contradiction
        · exact h.rows_preserves hpres hu p hp
      · intro d0 dev hdev hsome
        rcases h.safe d0 dev hdev hsome with hun | hdelivered
        · left
          rcases unsettled_cases hun with ⟨u, hmem, d', hu, hd, hholds⟩ | ⟨w, hw, hd⟩
          · by_cases hut : u = t
            · -- the uninstall goes back, and the device update is due
              rw [hut, ht] at hu
              obtain rfl := Option.some.inj hu
              obtain ⟨p, hp, huninstall⟩ := List.any_eq_true.mp hholds
              have hcond := hfound p hp
              rw [huninstall, Bool.not_true, Bool.false_or, Option.any_eq_true] at hcond
              obtain ⟨r, hr, hcond⟩ := hcond
              have hid : p.id ∈ ids := (exec_none_mem hdone).mpr ⟨r, hr, hcond⟩
              have hset := exec_none_set hdone hid hr
              obtain ⟨hdevice, htype⟩ := (h.rows t _ ht p hp).2 r hr
              have hback' : ⟨p.id, (CommandUpdate.requeue (rows.map (·.id))).set r⟩ ∈
                  back.filter (·.isUninstall) := by
                refine List.mem_filter.mpr ⟨?_, ?_⟩
                · rw [← hback]
                  exact mem_returning.mpr ⟨hid, hset⟩
                · show (r.type == AgentCommandType.uninstall) = true
                  rw [htype]
                  exact huninstall
              refine unsettled_of_write (w := .restorePending r.deviceId) ?_ (hdevice.trans hd)
              exact List.mem_append_right _ (List.mem_map_of_mem hback')
            · exact unsettled_of_drain hmem ((drains_setDrain_ne hut).trans hu) hd hholds
          · exact unsettled_of_write (List.mem_append_left _ hw) hd
        · exact .inr hdelivered
    · contradiction
  · contradiction

theorem fleetInv_ack (h : FleetInv s) {deviceId : Nat} {id : List Char} {status : AckStatus}
    {result : Option String} {now : Int} (hok : careful s (.ack deviceId id status result now) = true)
    (hs : fleetStep s (.ack deviceId id status result now) = some s') : FleetInv s' := by
  unfold fleetStep at hs
  dsimp only at hs
  split at hs
  · rw [← Option.some.inj hs]
    exact h
  · rename_i i hi
    by_cases hreports : s.reports deviceId id status = []
    · -- nothing is reported: the row may change, and a device update may come to be due
      rw [← Option.some.inj hs, hreports, List.append_nil]
      unfold Fleet.alone
      split
      · rename_i ids commands hexec
        exact h.transfer (exec_none_preserves hexec) rfl rfl rfl
          (fun w hw => List.mem_append_left _ hw) fun _ dev hdev hsome => ⟨dev, hdev, hsome⟩
      · exact h
    · simp only [careful, hi, Bool.or_eq_true, beq_iff_eq, hreports, false_or, Bool.and_eq_true] at hok
      obtain ⟨hcond, hexec⟩ := hok
      split at hexec
      · rename_i done hdone
        obtain ⟨ids, commands⟩ := done
        rw [Option.any_eq_true] at hcond
        obtain ⟨r, hr, hcond⟩ := hcond
        have hid : i ∈ ids := (exec_none_mem hdone).mpr ⟨r, hr, hcond⟩
        have hset := exec_none_set hdone hid hr
        have hreport : status = .failed ∧ r.deviceId = deviceId ∧ r.type = .uninstall ∧
            s.reports deviceId id status = [.reportedFailed deviceId i] := by
          have heq := hreports
          rw [Fleet.reports, hi] at heq
          dsimp only at heq
          rw [hr] at heq
          dsimp only at heq
          split at heq
          · rename_i hall
            refine ⟨hall.1, hall.2.1, hall.2.2, ?_⟩
            rw [Fleet.reports, hi]
            dsimp only
            rw [hr]
            exact if_pos hall
          · contradiction
        obtain ⟨hstatus, hdevice, htype, hreport⟩ := hreport
        rw [← Option.some.inj hs, hreport, Fleet.alone, hdone]
        dsimp only
        have hdue : (status = .failed ∧ (Fleet.returning { s with commands := commands } ids).any
            (·.isUninstall) = true) := by
          have hback : (⟨i, (CommandUpdate.ack i deviceId status result now).set r⟩ : ClaimedRow) ∈
              Fleet.returning { s with commands := commands } ids :=
            mem_returning.mpr ⟨hid, hset⟩
          refine ⟨hstatus, List.any_eq_true.mpr ⟨_, hback, ?_⟩⟩
          rw [ClaimedRow.isUninstall, beq_iff_eq]
          exact (CommandUpdate.set_type _ r).trans htype
        rw [if_pos hdue]
        have hpres := exec_none_preserves hdone
        refine ⟨h.started, ?_, ?_, ?_⟩
        · intro u d' hu p hp
          exact h.rows_preserves hpres hu p hp
        · intro d dev hdev hsome
          by_cases hd : deviceId = d
          · exact .inl (unsettled_of_write (w := .clearCommanded deviceId)
              (List.mem_append_right _ (List.mem_singleton_self _)) hd)
          · rcases h.safe d dev hdev hsome with hun | hdelivered
            · left
              rcases unsettled_cases hun with ⟨u, hmem, d', hu, hd, hholds⟩ | ⟨w, hw, hwd⟩
              · exact unsettled_of_drain hmem hu hd hholds
              · exact unsettled_of_write (List.mem_append_left _ hw) hwd
            · refine .inr (hdelivered.append ?_)
              intro j hmem
              have := UninstallEvent.reportedFailed.inj (List.mem_singleton.mp hmem)
              exact hd this.1.symm
        · refine deleted_append h.deleted ?_
          intro d hmem
          have := List.mem_singleton.mp hmem
          contradiction
      · contradiction

theorem fleetInv_deviceWrite (h : FleetInv s) {n : Nat}
    (hs : fleetStep s (.deviceWrite n) = some s') : FleetInv s' := by
  unfold fleetStep at hs
  dsimp only at hs
  split at hs
  · contradiction
  · rename_i w hw
    split at hs
    · rename_i ids devices hupd
      rw [← Option.some.inj hs]
      refine ⟨h.started, h.rows, ?_, h.deleted⟩
      intro d dev' hdev' hsome
      have hdev' : (devices.cells d).committed = some dev' := hdev'
      rw [updateDevice_committed hupd] at hdev'
      split at hdev'
      · -- the device of the update: its time is taken back
        obtain ⟨dev, -, rfl⟩ := Option.map_eq_some_iff.mp hdev'
        unfold DeviceWrite.apply at hsome
        split at hsome
        · contradiction
        · contradiction
      · rename_i hne
        rcases h.safe d dev' hdev' hsome with hun | hdelivered
        · left
          rcases unsettled_cases hun with ⟨u, hmem, d', hu, hd, hholds⟩ | ⟨w', hw', hd⟩
          · exact unsettled_of_drain hmem hu hd hholds
          · refine unsettled_of_write (w := w') ?_ hd
            show w' ∈ s.deviceWrites.eraseIdx n
            obtain ⟨m, hm⟩ := List.mem_iff_getElem?.mp hw'
            refine List.mem_eraseIdx_iff_getElem?.mpr ⟨m, ?_, hm⟩
            rintro rfl
            rw [hw] at hm
            rw [Option.some.inj hm] at hne
            exact hne hd.symm
        · exact .inr hdelivered
    · contradiction

theorem fleetInv_setPending (h : FleetInv s) {deviceId : Nat} {command : Option PendingCommand}
    (hs : fleetStep s (.setPending deviceId command) = some s') : FleetInv s' := by
  unfold fleetStep at hs
  dsimp only at hs
  split at hs
  · rename_i ids devices hupd
    rw [← Option.some.inj hs]
    refine h.transfer (Preserves.refl _) rfl rfl rfl (fun _ hw => hw) ?_
    intro i dev' hdev' hsome
    have hdev' : (devices.cells i).committed = some dev' := hdev'
    rw [updateDevice_committed hupd] at hdev'
    split at hdev'
    · obtain ⟨dev, hdev, rfl⟩ := Option.map_eq_some_iff.mp hdev'
      exact ⟨dev, hdev, hsome⟩
    · exact ⟨dev', hdev', hsome⟩
  · contradiction

theorem fleetInv_cleanupDelete (h : FleetInv s) {deviceId : Nat}
    (hok : careful s (.cleanupDelete deviceId) = true)
    (hs : fleetStep s (.cleanupDelete deviceId) = some s') : FleetInv s' := by
  simp only [careful, Bool.and_eq_true, Bool.not_eq_true'] at hok
  obtain ⟨hsettled, hset⟩ := hok
  rw [Option.any_eq_true] at hset
  obtain ⟨dev, hdev, hsome⟩ := hset
  have hdelivered : Delivered s.log deviceId := by
    refine (h.safe deviceId dev hdev hsome).resolve_left ?_
    rw [hsettled]
    exact Bool.false_ne_true
  unfold fleetStep at hs
  dsimp only at hs
  split at hs
  · rw [← Option.some.inj hs]
    have hpres := delete_preserves s.commands fun _ r => r.deviceId == deviceId
    refine ⟨h.started, ?_, ?_, ?_⟩
    · intro u d' hu p hp
      exact h.rows_preserves hpres hu p hp
    · intro d dev' hdev' hsome'
      have hdev' : (if (s.devices.cells d).committed.any (fun _ => d == deviceId) then Cell.empty
        else s.devices.cells d).committed = some dev' := hdev'
      split at hdev'
      · contradiction
      · rcases h.safe d dev' hdev' hsome' with hun | hdel
        · exact .inl hun
        · refine .inr (hdel.append ?_)
          simp
    · intro pre d post heq
      have heq : s.log ++ [.deleted deviceId] = pre ++ .deleted d :: post := heq
      rcases List.eq_nil_or_concat post with rfl | ⟨post, e, rfl⟩
      · obtain ⟨rfl, hlast⟩ := List.append_inj' heq rfl
        rw [← (UninstallEvent.deleted.inj (List.singleton_inj.mp hlast))]
        exact hdelivered
      · have heq : s.log ++ [.deleted deviceId] = (pre ++ .deleted d :: post) ++ [e] := by
          rw [heq, List.concat_eq_append, List.append_assoc, List.cons_append]
        exact h.deleted pre d post (List.append_inj' heq rfl).1
  · contradiction

theorem fleetInv_die (h : FleetInv s) {t : Nat} (hok : careful s (.die t) = true)
    (hs : fleetStep s (.die t) = some s') : FleetInv s' := by
  unfold fleetStep at hs
  dsimp only at hs
  split at hs
  · rename_i drain ht
    rw [← Option.some.inj hs]
    refine h.moveDrain_quiet ht ?_ ?_
    · intro d' hd'
      contradiction
    · intro hholds
      simp only [careful, ht, Option.all_some, hholds] at hok
      contradiction
  · contradiction

end actions

theorem fleetInv_step {s s' : Fleet} {a : FleetAction} (h : FleetInv s) (hok : careful s a = true)
    (hs : fleetStep s a = some s') : FleetInv s' := by
  cases a with
  | enqueue d =>
    rw [← Option.some.inj hs]
    exact fleetInv_enqueue h d
  | drain t deviceId kind cmdqueue now =>
    unfold fleetStep at hs
    dsimp only at hs
    split at hs
    · rename_i ht
      rw [← Option.some.inj hs]
      exact fleetInv_drain h ht
    · contradiction
  | write t => exact fleetInv_write h hs
  | writeFail t => exact fleetInv_writeFail h hs
  | skip t => exact fleetInv_skip h hs
  | select t => exact fleetInv_select h hok hs
  | requeue t => exact fleetInv_requeue h hok hs
  | die t => exact fleetInv_die h hok hs
  | fail id deviceId now result =>
    rw [← Option.some.inj hs]
    exact fleetInv_alone h _
  | ack deviceId id status result now => exact fleetInv_ack h hok hs
  | sweepExpired now =>
    rw [← Option.some.inj hs]
    exact fleetInv_alone h _
  | sweepTimedOut now =>
    rw [← Option.some.inj hs]
    exact fleetInv_alone h _
  | deviceWrite n => exact fleetInv_deviceWrite h hs
  | loseWrite n => contradiction
  | setPending deviceId command => exact fleetInv_setPending h hs
  | cleanupSelect cutoff =>
    rw [← Option.some.inj hs]
    exact h.transfer (Preserves.refl _) rfl rfl rfl (fun _ hw => hw)
      fun _ dev hdev hsome => ⟨dev, hdev, hsome⟩
  | cleanupDelete deviceId => exact fleetInv_cleanupDelete h hok hs

/-! ## Runs -/

/-- No drain is under way, and no uninstall has been claimed. -/
structure Fleet.Idle (s : Fleet) : Prop where
  drains : ∀ t, s.drains t = none
  devices : ∀ d dev, (s.devices.cells d).committed = some dev → dev.uninstallCommandedAt = none
  log : s.log = []

theorem fleetInv_idle {s : Fleet} (h : s.Idle) : FleetInv s where
  started := by
    intro t drain ht
    rw [h.drains] at ht
    contradiction
  rows := by
    intro t drain ht
    rw [h.drains] at ht
    contradiction
  safe := by
    intro d dev hdev hsome
    rw [h.devices d dev hdev] at hsome
    contradiction
  deleted := by
    intro pre d post hlog
    rw [h.log] at hlog
    have hlen := congrArg List.length hlog
    simp at hlen

/-- In every run under the condition, the cleanup job deletes only devices that got an uninstall and
have not reported it as failed since. -/
theorem deleted_delivered (s0 : Fleet) (h0 : s0.Idle) (as : List FleetAction) (s : Fleet)
    (hok : StepsMeet fleetStep (fun s a => careful s a) s0 as) (h : run fleetStep s0 as = some s)
    (pre : List UninstallEvent) (d : Nat) (post : List UninstallEvent)
    (hlog : s.log = pre ++ .deleted d :: post) : Delivered pre d := by
  have hinv : FleetInv s := run_invariant (fun _ _ _ => fleetInv_step) (fleetInv_idle h0) hok h
  exact hinv.deleted pre d post hlog

theorem oneAgent_fresh (i : Nat) (hi : 2 ≤ i) :
    (if i = 1 then (⟨some ⟨1, .approved, none, none⟩, none⟩ : Cell AgentDeviceRow) else Cell.empty) = Cell.empty :=
  if_neg (by omega)

/-- A fleet of one approved device. -/
def oneAgent : Fleet where
  commands := Store.empty
  devices := ⟨fun i => if i = 1 then ⟨some ⟨1, .approved, none, none⟩, none⟩ else Cell.empty, 2,
    oneAgent_fresh⟩
  deviceWrites := []
  drains _ := none
  started := []
  selected := []
  log := []

theorem oneAgent_idle : oneAgent.Idle where
  drains _ := rfl
  devices := by
    intro d dev hdev
    simp only [oneAgent] at hdev
    split at hdev
    · rw [← Option.some.inj hdev]
    · contradiction
  log := rfl

/-- The first write fails and the uninstall goes back to the queue; the second connect gets it, and
the cleanup job runs eleven minutes later. -/
def secondConnect : List FleetAction :=
  [.enqueue ⟨1, 1, .uninstall, "", none, 0⟩, .drain 1 1 .hub true 1000, .writeFail 1, .requeue 1,
    .deviceWrite 0, .drain 2 1 .hub true 2000, .write 2, .cleanupSelect 60000, .cleanupDelete 1]

theorem deleted_delivered_secondConnect :
    (run fleetStep oneAgent secondConnect).map (·.log) = some [.written 1 1, .deleted 1] ∧
      Delivered [.written 1 1] 1 := by
  have hlog : (run fleetStep oneAgent secondConnect).map (·.log) =
      some [.written 1 1, .deleted 1] := by decide +kernel
  refine ⟨hlog, ?_⟩
  obtain ⟨s, hs, hlog⟩ := Option.map_eq_some_iff.mp hlog
  exact deleted_delivered oneAgent oneAgent_idle secondConnect s (by decide +kernel) hs
    [.written 1 1] 1 [] hlog

/-- `handlePush` claims the uninstall for an agent without `cmdqueue`, and its next statement, the
update of `updated_at`, is a database error. -/
def lostResponse : List FleetAction :=
  [.enqueue ⟨1, 1, .uninstall, "", none, 0⟩, .drain 1 1 (.pushFrame 1000) false 1000, .die 1,
    .cleanupSelect 60000, .cleanupDelete 1]

/-- The device is deleted, and nothing was ever written to it. -/
theorem deleted_unwritten : ¬ ∀ s0 : Fleet, s0.Idle → ∀ as s, run fleetStep s0 as = some s →
    ∀ pre d post, s.log = pre ++ .deleted d :: post → Delivered pre d := by
  intro h
  have hlog : (run fleetStep oneAgent lostResponse).map (·.log) = some [.deleted 1] := by
    decide +kernel
  obtain ⟨s, hs, hlog⟩ := Option.map_eq_some_iff.mp hlog
  obtain ⟨row, pre, post, hnil, -⟩ := h oneAgent oneAgent_idle lostResponse s hs [] 1 [] hlog
  have hlen := congrArg List.length hnil
  simp at hlen

end Obliguard.Server

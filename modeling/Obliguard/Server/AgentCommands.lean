import Mathlib.Data.List.Sort
import Obliguard.Lib.Numeral
import Obliguard.Lib.ReadCommitted
import Obliguard.Lib.Runs
import Obliguard.Lib.Text

/-!
# The agent command queue, statement by statement

`agentCommandService` over the tables `agent_commands` and `agent_devices`. `enqueue` and `claim` are
transactions that first lock the device row; `requeue`, `fail`, `ack` and `sweep` are single
statements that take no such lock, followed by a separate update of the device row for an uninstall.
`commandStep` interleaves all of them at the granularity of statements, under read committed
isolation.
-/

namespace Obliguard.Server

open ReadCommitted Runs Text Numeral

/-! ## Rows -/

inductive AgentCommandType
  | uninstall
  | restart
  | firewallResync
deriving DecidableEq

inductive AgentCommandStatus
  | queued
  | sent
  | acked
  | succeeded
  | failed
  | expired
deriving DecidableEq

/-- A row of `agent_commands`, without its id. -/
structure AgentCommandRow where
  deviceId : Nat
  tenantId : Nat
  type : AgentCommandType
  payload : String
  status : AgentCommandStatus
  result : Option String
  legacy : Bool
  createdBy : Option Nat
  createdAt : Int
  sentAt : Option Int
  ackedAt : Option Int
  finishedAt : Option Int
  expiresAt : Option Int
deriving DecidableEq

inductive AgentDeviceStatus
  | pending
  | approved
  | refused
  | suspended
deriving DecidableEq

/-- `pending_command`. -/
inductive PendingCommand
  | uninstall
  | other (command : String)
deriving DecidableEq

/-- The columns of `agent_devices` that the queue reads or writes. -/
structure AgentDeviceRow where
  tenantId : Nat
  status : AgentDeviceStatus
  pendingCommand : Option PendingCommand
  uninstallCommandedAt : Option Int
deriving DecidableEq

/-- `COMMAND_TTL_MS`. -/
def commandTtlMs : AgentCommandType → Option Int
  | .uninstall => none
  | .restart | .firewallResync => some (24 * 3600000)

/-- `RESULT_TIMEOUT_MS`. -/
def resultTimeoutMs : Int := 15 * 60000

/-- `DRAIN_LIMIT`. -/
def drainLimit : Nat := 10

/-- `OPEN_STATUSES`. -/
def AgentCommandStatus.isOpen : AgentCommandStatus → Bool
  | .queued | .sent | .acked => true
  | _ => false

/-- `outstanding`. -/
def AgentCommandRow.outstanding (r : AgentCommandRow) : Bool :=
  r.status.isOpen && r.finishedAt.isNone

/-- The partial unique index `uq_agent_commands_outstanding`. -/
def outstandingKey (r : AgentCommandRow) : Option (Nat × AgentCommandType) :=
  if r.outstanding then some (r.deviceId, r.type) else none

/-! ## Statements -/

/-- The statuses an agent reports. -/
inductive AckStatus
  | acked
  | succeeded
  | failed
deriving DecidableEq

/-- The id of an acknowledgement, `/^[1-9][0-9]{0,17}$/`. -/
def ackId (text : List Char) : Option Nat :=
  let text := jsTrim text
  if text.head?.any (fun c => '1' ≤ c && c ≤ '9') && text.length ≤ 18 &&
      text.all (fun c => '0' ≤ c && c ≤ '9') then
    some (ofDigits 10 text)
  else none

/-- The updates of `agent_commands`. -/
inductive CommandUpdate
  /-- The first statement of `claim`, for its device. -/
  | expireOf (deviceId : Nat) (now : Int)
  /-- The first statement of `sweep`. -/
  | expire (now : Int)
  /-- The second statement of `sweep`. -/
  | timeOut (now : Int)
  /-- The delivery of `claim` to an agent with `cmdqueue`: by id alone. -/
  | send (ids : List Nat) (now : Int)
  /-- The delivery of `claim` to an older agent. -/
  | sendLegacy (deviceId : Nat) (now : Int)
  | requeue (ids : List Nat)
  | fail (id deviceId : Nat) (now : Int) (result : String)
  | ack (id deviceId : Nat) (status : AckStatus) (result : Option String) (now : Int)

/-- The `WHERE` of an update. -/
def CommandUpdate.cond (u : CommandUpdate) (id : Nat) (r : AgentCommandRow) : Bool :=
  match u with
  | .expireOf deviceId now =>
    r.deviceId == deviceId && r.status == .queued && r.expiresAt.any (· ≤ now)
  | .expire now => r.status == .queued && r.expiresAt.any (· ≤ now)
  | .timeOut now => (r.status == .sent || r.status == .acked) && r.finishedAt.isNone &&
      r.sentAt.any (· < now - resultTimeoutMs)
  | .send ids _ => ids.contains id
  | .sendLegacy deviceId _ =>
    r.deviceId == deviceId && r.status == .queued && r.type == .uninstall
  | .requeue ids => ids.contains id && r.status == .sent && (r.finishedAt.isNone || r.legacy)
  | .fail i deviceId _ _ => id == i && r.deviceId == deviceId && r.status.isOpen
  | .ack i deviceId status _ _ => id == i && r.deviceId == deviceId && r.finishedAt.isNone &&
      match status with
      | .acked => r.status == .sent
      | .succeeded | .failed => r.status == .sent || r.status == .acked

/-- The `SET` of an update. -/
def CommandUpdate.set (u : CommandUpdate) (r : AgentCommandRow) : AgentCommandRow :=
  match u with
  | .expireOf _ now | .expire now => { r with status := .expired, finishedAt := some now }
  | .timeOut now => { r with
      status := .failed
      finishedAt := some now
      result := some "\x7b\"error\":\"No result reported by the agent\"\x7d" }
  | .send _ now => { r with status := .sent, sentAt := some now }
  | .sendLegacy _ now => { r with
      status := .sent
      sentAt := some now
      finishedAt := some now
      legacy := true }
  | .requeue _ => { r with status := .queued, sentAt := none, finishedAt := none, legacy := false }
  | .fail _ _ now result => { r with
      status := .failed
      finishedAt := some now
      result := some result }
  | .ack _ _ .acked result now => { r with
      status := .acked
      ackedAt := some now
      result := result.or r.result }
  | .ack _ _ .succeeded result now => { r with
      status := .succeeded
      ackedAt := some (r.ackedAt.getD now)
      finishedAt := some now
      result := result }
  | .ack _ _ .failed result now => { r with
      status := .failed
      ackedAt := some (r.ackedAt.getD now)
      finishedAt := some now
      result := result }

/-- An update under the unique index. -/
def CommandUpdate.exec (u : CommandUpdate) (commands : Store AgentCommandRow) (tx : Option Nat) :
    Outcome (List Nat × Store AgentCommandRow) :=
  commands.update outstandingKey tx u.cond fun _ => u.set

/-- The arguments of `enqueue`. -/
structure EnqueueData where
  deviceId : Nat
  tenantId : Nat
  type : AgentCommandType
  payload : String
  createdBy : Option Nat
  now : Int
deriving DecidableEq

def EnqueueData.row (d : EnqueueData) : AgentCommandRow where
  deviceId := d.deviceId
  tenantId := d.tenantId
  type := d.type
  payload := d.payload
  status := .queued
  result := none
  legacy := false
  createdBy := d.createdBy
  createdAt := d.now
  sentAt := none
  ackedAt := none
  finishedAt := none
  expiresAt := (commandTtlMs d.type).map (d.now + ·)

/-- The arguments of `claim`, with the device row it locked. -/
structure ClaimData where
  deviceId : Nat
  cmdqueue : Bool
  now : Int
  dev : AgentDeviceRow
deriving DecidableEq

/-- The row that `claim` inserts for a pending uninstall. -/
def ClaimData.uninstallRow (c : ClaimData) : AgentCommandRow where
  deviceId := c.deviceId
  tenantId := c.dev.tenantId
  type := .uninstall
  payload := "\x7b\x7d"
  status := .queued
  result := none
  legacy := false
  createdBy := none
  createdAt := c.now
  sentAt := none
  ackedAt := none
  finishedAt := none
  expiresAt := none

/-- The last update of `claim`. -/
def ClaimData.device (c : ClaimData) (dev : AgentDeviceRow) : AgentDeviceRow :=
  { dev with
    pendingCommand := if c.dev.pendingCommand = some .uninstall then none else dev.pendingCommand
    uninstallCommandedAt := some c.now }

/-- An update of the device row that `requeue` or `ack` makes after its own. -/
inductive DeviceWrite
  | restorePending (deviceId : Nat)
  | clearCommanded (deviceId : Nat)
deriving DecidableEq

def DeviceWrite.deviceId : DeviceWrite → Nat
  | .restorePending d | .clearCommanded d => d

def DeviceWrite.apply (w : DeviceWrite) (dev : AgentDeviceRow) : AgentDeviceRow :=
  match w with
  | .restorePending _ => { dev with
      pendingCommand := some .uninstall
      uninstallCommandedAt := none }
  | .clearCommanded _ => { dev with uninstallCommandedAt := none }

/-! ## The tables and the transactions -/

/-- Where a transaction stands: the statement it executes next. -/
inductive CommandTx
  | enqueueSelect (d : EnqueueData)
  | enqueueInsert (d : EnqueueData)
  | enqueueDevice (d : EnqueueData)
  | enqueueCommit (d : EnqueueData)
  | claimExpire (c : ClaimData)
  | claimPending (c : ClaimData)
  | claimInsert (c : ClaimData)
  | claimSelect (c : ClaimData)
  | claimUpdate (c : ClaimData) (ids : List Nat)
  | claimDevice (c : ClaimData) (rows : List Nat)
  | claimCommit (c : ClaimData) (rows : List Nat)

inductive DeliveryEvent
  /-- A claim returns the row; the status that the others saw until then. -/
  | returned (id : Nat) (before : Option AgentCommandStatus)
  | requeued (id : Nat)
deriving DecidableEq

structure CommandDb where
  commands : Store AgentCommandRow
  devices : Store AgentDeviceRow
  txs : Nat → Option CommandTx
  /-- The device updates that calls of `requeue` and `ack` have still to make. -/
  deviceWrites : List DeviceWrite
  events : List DeliveryEvent

inductive CommandAction
  | beginEnqueue (t : Nat) (d : EnqueueData)
  | beginClaim (t deviceId : Nat) (cmdqueue : Bool) (now : Int)
  /-- The next statement of a transaction. -/
  | next (t : Nat)
  /-- A database error ends a transaction. -/
  | abort (t : Nat)
  | requeue (ids : List Nat)
  | fail (id deviceId : Nat) (now : Int) (result : String)
  | ack (deviceId : Nat) (id : List Char) (status : AckStatus) (result : Option String) (now : Int)
  | sweepExpired (now : Int)
  | sweepTimedOut (now : Int)
  | deviceWrite (n : Nat)

namespace CommandDb

variable (s : CommandDb) (t : Nat)

def setTx (tx : Option CommandTx) : CommandDb :=
  { s with txs := fun u => if u = t then tx else s.txs u }

def rollback : CommandDb :=
  { (s.setTx t none) with commands := s.commands.rollback t, devices := s.devices.rollback t }

def commit : CommandDb :=
  { (s.setTx t none) with commands := s.commands.commit t, devices := s.devices.commit t }

/-- An update of `agent_devices`: it has no key that matters here. -/
def updateDevice (tx : Option Nat) (p : Nat → AgentDeviceRow → Bool)
    (f : AgentDeviceRow → AgentDeviceRow) : Outcome (List Nat × Store AgentDeviceRow) :=
  s.devices.update (fun _ => (none : Option Unit)) tx p fun _ => f

/-- `SELECT ... FOR UPDATE` of a device, then the first statement. -/
def lockDevice (p : Nat → AgentDeviceRow → Bool) (start : Nat → AgentDeviceRow → Option CommandTx) :
    Option CommandDb :=
  match s.updateDevice (some t) p id with
  | .done (d :: _, devices) => match (devices.cells d).view (some t) with
    | some dev => match start d dev with
      | some tx => some { (s.setTx t (some tx)) with devices := devices }
      | none => some s
    | none => some s
  | .done ([], _) => some s
  | _ => none

/-- A statement of a transaction on `agent_commands`. -/
def inTx (o : Outcome (List Nat × Store AgentCommandRow)) (next : List Nat → CommandTx) :
    Option CommandDb :=
  match o with
  | .done (ids, commands) => some { (s.setTx t (some (next ids))) with commands := commands }
  | .violation => some (s.rollback t)
  | .blocked => none

/-- A statement of a transaction on `agent_devices`. -/
def inTxDevice (o : Outcome (List Nat × Store AgentDeviceRow)) (next : CommandTx) :
    Option CommandDb :=
  match o with
  | .done (_, devices) => some { (s.setTx t (some next)) with devices := devices }
  | .violation => some (s.rollback t)
  | .blocked => none

/-- A statement that commits at once; a violation is an error of its caller. -/
def alone (u : CommandUpdate) (after : List Nat → CommandDb → CommandDb) : Option CommandDb :=
  match u.exec s.commands none with
  | .done (ids, commands) => some (after ids { s with commands := commands })
  | .violation => some s
  | .blocked => none

/-- The ids of the outstanding rows of a device and type. -/
def outstandingIds (deviceId : Nat) (type : AgentCommandType) : List Nat :=
  s.commands.select (some t) fun _ r => r.deviceId == deviceId && r.type == type && r.outstanding

/-- The ids of the queued rows of a device: the oldest first, at most `drainLimit`. -/
def queuedIds (deviceId : Nat) : List Nat :=
  ((s.commands.select (some t) fun _ r => r.deviceId == deviceId && r.status == .queued).insertionSort
    fun i j => createdAt i ≤ createdAt j).take drainLimit
where
  createdAt (i : Nat) : Int := (((s.commands.cells i).view (some t)).map (·.createdAt)).getD 0

/-- Whether a row is an uninstall. -/
def isUninstall (tx : Option Nat) (i : Nat) : Bool :=
  ((s.commands.cells i).view tx).any (·.type == .uninstall)

/-- The next statement of `enqueue` and `claim`. -/
def next : CommandTx → Option CommandDb
  | .enqueueSelect d =>
    if s.outstandingIds t d.deviceId d.type = [] then some (s.setTx t (some (.enqueueInsert d)))
    else some (s.rollback t)
  | .enqueueInsert d =>
    match s.commands.insert outstandingKey (some t) d.row with
    | .done commands => some { (s.setTx t (some (.enqueueDevice d))) with commands := commands }
    | .violation => some (s.rollback t)
    | .blocked => none
  | .enqueueDevice d =>
    if d.type = .uninstall then
      s.inTxDevice t (s.updateDevice (some t) (fun i _ => i == d.deviceId) fun dev =>
        { dev with pendingCommand := some .uninstall }) (.enqueueCommit d)
    else some (s.setTx t (some (.enqueueCommit d)))
  | .enqueueCommit _ => some (s.commit t)
  | .claimExpire c =>
    s.inTx t ((CommandUpdate.expireOf c.deviceId c.now).exec s.commands (some t)) fun _ =>
      .claimPending c
  | .claimPending c => some (s.setTx t (some (
      if c.dev.pendingCommand = some .uninstall ∧ s.outstandingIds t c.deviceId .uninstall = [] then
        .claimInsert c
      else .claimSelect c)))
  | .claimInsert c =>
    match s.commands.insert outstandingKey (some t) c.uninstallRow with
    | .done commands => some { (s.setTx t (some (.claimSelect c))) with commands := commands }
    | .violation => some (s.rollback t)
    | .blocked => none
  | .claimSelect c =>
    if c.cmdqueue then some (s.setTx t (some (.claimUpdate c (s.queuedIds t c.deviceId))))
    else s.inTx t ((CommandUpdate.sendLegacy c.deviceId c.now).exec s.commands (some t))
      (.claimDevice c)
  | .claimUpdate c ids =>
    s.inTx t ((CommandUpdate.send ids c.now).exec s.commands (some t)) (.claimDevice c)
  | .claimDevice c rows =>
    if rows.any (s.isUninstall (some t)) then
      s.inTxDevice t (s.updateDevice (some t) (fun i _ => i == c.deviceId) c.device)
        (.claimCommit c rows)
    else some (s.setTx t (some (.claimCommit c rows)))
  | .claimCommit _ rows => some { (s.commit t) with
      events := s.events ++ rows.map fun i =>
        .returned i ((s.commands.cells i).committed.map (·.status)) }

end CommandDb

/-- One statement. -/
def commandStep (s : CommandDb) : CommandAction → Option CommandDb
  | .beginEnqueue t d => match s.txs t with
    | some _ => none
    | none => s.lockDevice t (fun i dev => i == d.deviceId && dev.tenantId == d.tenantId) fun _ _ =>
        some (.enqueueSelect d)
  | .beginClaim t deviceId cmdqueue now => match s.txs t with
    | some _ => none
    | none => s.lockDevice t (fun i _ => i == deviceId) fun _ dev =>
        if dev.status = .approved then some (.claimExpire ⟨deviceId, cmdqueue, now, dev⟩) else none
  | .next t => (s.txs t).bind (s.next t)
  | .abort t => (s.txs t).map fun _ => s.rollback t
  | .requeue ids => s.alone (.requeue ids) fun back s' => { s' with
      deviceWrites := s'.deviceWrites ++ (back.filter (s'.isUninstall none)).filterMap fun i =>
        (s'.commands.cells i).committed.map fun r => .restorePending r.deviceId
      events := s'.events ++ back.map .requeued }
  | .fail id deviceId now result => s.alone (.fail id deviceId now result) fun _ s' => s'
  | .ack deviceId id status result now => match ackId id with
    | none => some s
    | some id => s.alone (.ack id deviceId status result now) fun rows s' => { s' with
        deviceWrites := s'.deviceWrites ++
          if status = .failed ∧ rows.any (s'.isUninstall none) then [.clearCommanded deviceId]
          else [] }
  | .sweepExpired now => s.alone (.expire now) fun _ s' => s'
  | .sweepTimedOut now => s.alone (.timeOut now) fun _ s' => s'
  | .deviceWrite n => match s.deviceWrites[n]? with
    | none => none
    | some w => match s.updateDevice none (fun i _ => i == w.deviceId) w.apply with
      | .done (_, devices) => some { s with
          devices := devices
          deviceWrites := s.deviceWrites.eraseIdx n }
      | _ => none

end Obliguard.Server

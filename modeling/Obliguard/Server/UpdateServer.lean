import Obliguard.Lib.Runs
import Obliguard.Server.UpdateAttempts

/-!
# The update server, statement by statement

The operations on update attempts, interleaved: the heartbeats (the outcome of the attempts, the offer
and its place in the rollout window), the `update_status` frames, the legacy updating signal, the
requests of operators, the cancellations and the cleanup job. Every statement is a step of its own,
and so is everything that happens between two awaits; other code may change a device row at any time.

`withRolloutSlot` runs one heartbeat at a time: `queue` holds those that wait for `slotLock`, the
first of them being the one that has it. `updateStep_does` is the inversion of a step, and
`updateStep_writes` what follows for the attempts.
-/

namespace Obliguard.Server

open Runs

/-! ## Devices -/

inductive AgentUpdatePolicy
  | auto
  | manual
  | off
deriving DecidableEq

inductive AgentDeviceType
  | agent
  | mikrotik
deriving DecidableEq

/-- A device as the update code sees it: its row and its resolved policy. -/
structure UpdateDevice where
  tenantId : Nat
  deviceType : AgentDeviceType
  status : AgentDeviceStatus
  agentVersion : Option (List Char)
  resolvedUpdatePolicy : AgentUpdatePolicy
  /-- `updatePolicySource = 'unresolved'`. -/
  unresolved : Bool
  /-- The file it downloads, `updateArtifactForOs`. -/
  artifact : Option (List Char)
  updateRequestedAt : Option Int
  updateRequestedVersion : Option (List Char)
  updatingSince : Option Int
deriving DecidableEq

def agentUpdateRequestTtlMs : Int := 24 * 3600 * 1000

/-- `isUpdateRequestLive`. -/
def UpdateDevice.requestLive (device : UpdateDevice) (served : List Char) (now : Int) : Bool :=
  match device.updateRequestedAt, device.updateRequestedVersion with
  | some requestedAt, some version =>
    version == served && decide (now - requestedAt < agentUpdateRequestTtlMs)
  | _, _ => false

def shouldAdvertiseUpdate (device : UpdateDevice) (served reported : List Char) (now : Int) : Bool :=
  device.deviceType == .agent && device.status == .approved && reported != [] &&
    isStrictlyNewerAgentVersion served reported && device.resolvedUpdatePolicy != .off &&
    (device.resolvedUpdatePolicy == .auto || device.requestLive served now)

/-- `buildMatchesServed`, for a manifest of files and versions. -/
def buildMatchesServed (manifest : Option (List (List Char × List Char))) (served : List Char)
    (artifact : Option (List Char)) : Bool :=
  match manifest with
  | none => true
  | some artifacts => artifact.any fun file => artifacts.lookup file == some served

/-- The devices that `requestUpdate` does not skip. -/
def UpdateDevice.eligible (device : UpdateDevice) (served : List Char) : Bool :=
  device.deviceType == .agent && device.status == .approved && !device.unresolved &&
    device.resolvedUpdatePolicy != .off &&
    device.agentVersion.any fun version => version != [] && isStrictlyNewerAgentVersion served version

/-! ## The rollout window -/

def updateRolloutMaxPerWindow : Nat := 25

def updateRolloutWindowMs : Int := 60000

def updateRolloutReservationMs : Int := 15000

/-- `FULL_RECHECK_MS`. -/
def fullRecheckMs : Int := 1000

/-- An entry of `reservations`. -/
structure Reservation where
  deviceId : Nat
  clock : Int
  /-- The clock when the slot was taken, which a renewal does not change (not kept by the code). -/
  since : Int
deriving DecidableEq

/-- `purgeReservations`. -/
def purgeReservations (reservations : List Reservation) (now : Int) : List Reservation :=
  reservations.filter fun r => decide (|now - r.clock| < updateRolloutReservationMs)

def countRolloutOffersInWindow (t : Keyed attemptKey) (now : Int) : Nat :=
  (t.rows.filter fun r => r.lastOfferedAt.any fun offeredAt =>
    decide (now - updateRolloutWindowMs < offeredAt ∧ offeredAt ≤ now)).length

def rolloutWindowHasRoom (counted reserved : Nat) : Bool :=
  counted + reserved < updateRolloutMaxPerWindow

/-! ## Processes -/

/-- A call of one of the operations, before its next statement. -/
inductive UpdateProc
  | reconcileSelect (deviceId : Nat) (reported : List Char) (now : Int) (connectedAt : Option Int)
  | reconcileLoop (reported : List Char) (now : Int) (connectedAt : Option Int)
      (rows : List UpdateAttemptRow)
  | requestSelect (ids : List Nat) (tenantId : Nat) (served : List Char)
  | requestDevices (eligible : List Nat) (tenantId : Nat) (served : List Char) (now : Int)
  | requestAttempts (eligible : List Nat) (served : List Char) (now : Int)
  | statusSelect (deviceId tenantId : Nat) (st : ParsedUpdateStatus)
  | statusUpsert (deviceId : Nat) (st : ParsedUpdateStatus) (now : Int)
  | statusDevice (deviceId : Nat)
  | updatingDevice (deviceId tenantId : Nat) (now : Int)
  | updatingRead (deviceId tenantId : Nat) (now : Int)
  | updatingSelect (deviceId tenantId : Nat) (now : Int) (agentVersion : List Char)
  | updatingWrite (attempt : Nat × List Char) (now : Int)
  | cleanupDevices (now : Int)
  | cleanupAttempts (stuckIds : List Nat) (now : Int)
  | cleanupClear (ids : List Nat)

/-- Where the offer of a heartbeat stands. -/
inductive Beat
  /-- `handlePush` has loaded the device. -/
  | loaded (device : UpdateDevice) (deviceId : Nat) (reported : List Char)
  /-- Before the select of `resolveAdvertisedVersion`. -/
  | selecting (device : UpdateDevice) (deviceId : Nat) (served : List Char) (now : Int)
  /-- The cap is reached: before its update. -/
  | abandoning (device : UpdateDevice) (deviceId : Nat) (served : List Char) (now : Int)
  /-- Before `clearUpdateRequestIfUnchanged`. -/
  | clearing (deviceId : Nat) (readAt : Int)
  /-- Waiting for `slotLock`. -/
  | queued (deviceId : Nat) (version : List Char) (now : Int)
  /-- Before the count. -/
  | counting (deviceId : Nat) (version : List Char) (now : Int)
  | counted (deviceId : Nat) (version : List Char) (now : Int) (offers : Nat)
  /-- The slot is taken and the frame can be written. -/
  | granted (deviceId : Nat) (version : List Char)
  /-- `recordUpdateOffer` before its upsert. -/
  | recording (deviceId : Nat) (version : List Char) (now : Int)
  /-- And before its `finally`. -/
  | releasing (deviceId : Nat)
deriving DecidableEq

structure UpdateServer where
  clock : Int
  served : Option (List Char)
  manifest : Option (List (List Char × List Char))
  devices : Registry UpdateDevice
  attempts : Keyed attemptKey
  procs : Registry UpdateProc
  beats : Registry Beat
  reservations : List Reservation
  windowFullAt : Option Int
  queue : List Nat
  log : List AttemptEvent

namespace UpdateServer

variable (s : UpdateServer)

def setProc (t : Nat) (proc : UpdateProc) : UpdateServer := { s with procs := s.procs.put t proc }

def endProc (t : Nat) : UpdateServer := { s with procs := s.procs.erase t }

def setBeat (t : Nat) (beat : Beat) : UpdateServer := { s with beats := s.beats.put t beat }

def endBeat (t : Nat) : UpdateServer := { s with beats := s.beats.erase t }

def write (w : AttemptWrite) : UpdateServer :=
  { s with attempts := w.exec s.attempts, log := s.log ++ w.events s.attempts }

def updateDevices (p : Nat → UpdateDevice → Bool) (f : UpdateDevice → UpdateDevice) : UpdateServer :=
  { s with devices := ⟨s.devices.entries.map fun (d, device) =>
      (d, if p d device then f device else device)⟩ }

end UpdateServer

/-- What `reconcileUpdateAttempts` does with an attempt it selected. -/
def reconcileWrite (a : UpdateAttemptRow) (reported : List Char) (now : Int)
    (connectedAt : Option Int) : Option AttemptWrite :=
  if !isStrictlyNewerAgentVersion a.targetVersion reported then some (.succeed (attemptKey a) now)
  else if a.phase ≠ .installing ∧ a.phase ≠ .restarting then none
  else
    let reconnected := match connectedAt with
      | some connectedAt => decide (a.updatedAt < connectedAt)
      | none => decide (2 * 60000 ≤ now - a.updatedAt)
    if reconnected then some (.revert (attemptKey a) a.phase now) else none

/-- The next statement of a call. -/
def procNext (s : UpdateServer) (t : Nat) : UpdateProc → Option UpdateServer
  | .reconcileSelect deviceId reported now connectedAt =>
    some (s.setProc t (.reconcileLoop reported now connectedAt
      (s.attempts.rows.filter fun r => r.deviceId == deviceId && r.phase != .succeeded)))
  | .reconcileLoop _ _ _ [] => some (s.endProc t)
  | .reconcileLoop reported now connectedAt (a :: rows) =>
    let s' := s.setProc t (.reconcileLoop reported now connectedAt rows)
    match reconcileWrite a reported now connectedAt with
    | some w => some (s'.write w)
    | none => some s'
  | .requestSelect ids tenantId served =>
    let eligible := ids.dedup.filter fun d =>
      (s.devices.get d).any fun device => device.tenantId == tenantId && device.eligible served
    if eligible = [] then some (s.endProc t)
    else some (s.setProc t (.requestDevices eligible tenantId served s.clock))
  | .requestDevices eligible tenantId served now =>
    some ((s.updateDevices (fun d device => eligible.contains d && device.tenantId == tenantId)
      fun device => { device with
        updateRequestedAt := some now
        updateRequestedVersion := some served }).setProc t (.requestAttempts eligible served now))
  | .requestAttempts eligible served now =>
    some ((s.endProc t).write (.restoreBudget eligible served now))
  | .statusSelect deviceId tenantId st =>
    if (s.devices.get deviceId).any fun device => device.tenantId == tenantId && device.status == .approved
    then some (s.setProc t (.statusUpsert deviceId st s.clock))
    else some (s.endProc t)
  | .statusUpsert deviceId st now =>
    let w := AttemptWrite.applyStatus deviceId st now
    if w.hits s.attempts (deviceId, st.targetVersion) && st.phase == .failed then
      some ((s.setProc t (.statusDevice deviceId)).write w)
    else some ((s.endProc t).write w)
  | .statusDevice deviceId =>
    some ((s.updateDevices (fun d _ => d == deviceId)
      fun device => { device with updatingSince := none }).endProc t)
  | .updatingDevice deviceId tenantId now =>
    some ((s.updateDevices (fun d _ => d == deviceId)
      fun device => { device with updatingSince := some now }).setProc t
        (.updatingRead deviceId tenantId now))
  | .updatingRead deviceId tenantId now =>
    some (s.setProc t (.updatingSelect deviceId tenantId now
      (((s.devices.get deviceId).bind (·.agentVersion)).getD [])))
  -- the open attempt is chosen by `selectOpen`
  | .updatingSelect .. => none
  | .updatingWrite attempt now => some ((s.endProc t).write (.install attempt now))
  | .cleanupDevices now =>
    some (s.setProc t (.cleanupAttempts ((s.devices.entries.filter fun e =>
      e.2.updatingSince.any (· < now - updateAttemptTimeoutMs)).map (·.1)) now))
  | .cleanupAttempts stuckIds now =>
    let w := AttemptWrite.timeOut stuckIds now
    some ((s.setProc t (.cleanupClear
      (stuckIds ++ (s.attempts.rows.filter w.cond).map (·.deviceId)))).write w)
  | .cleanupClear ids =>
    some ((s.updateDevices (fun d _ => ids.contains d)
      fun device => { device with updatingSince := none }).endProc t)

/-- The attempts among which `setDeviceUpdating` takes the last changed one. -/
def openAttempts (t : Keyed attemptKey) (deviceId : Nat) : List UpdateAttemptRow :=
  t.rows.filter fun r => r.deviceId == deviceId &&
    (r.phase == .offered || r.phase == .downloading || r.phase == .verifying)

/-- The select of `setDeviceUpdating`; of several rows changed last the database takes any one. -/
def selectOpen (s : UpdateServer) (t : Nat) (choice : Option (List Char)) :
    UpdateProc → Option UpdateServer
  | .updatingSelect deviceId tenantId now agentVersion =>
    let open_ := openAttempts s.attempts deviceId
    match choice with
    | some version =>
      if open_.any fun r => r.targetVersion == version && open_.all (·.updatedAt ≤ r.updatedAt) then
        some (s.setProc t (.updatingWrite (deviceId, version) now))
      else none
    | none =>
      if open_ ≠ [] then none
      else match s.served with
        | some served =>
          if isStrictlyNewerAgentVersion served agentVersion then
            some (s.setProc t (.statusSelect deviceId tenantId ⟨served, .installing, none, rfl⟩))
          else some (s.endProc t)
        | none => some (s.endProc t)
  | _ => none

/-- A heartbeat that waits for `slotLock`. -/
def UpdateServer.enqueue (s : UpdateServer) (t deviceId : Nat) (version : List Char) (now : Int) :
    UpdateServer :=
  { s.setBeat t (.queued deviceId version now) with queue := s.queue ++ [t] }

/-- The start of `reserveRolloutSlot`, up to its count. -/
def UpdateServer.reserve (s : UpdateServer) (t deviceId : Nat) (version : List Char) (now : Int) :
    UpdateServer :=
  let reservations := purgeReservations s.reservations now
  if reservations.any (·.deviceId == deviceId) then
    { s.setBeat t (.granted deviceId version) with
      reservations := reservations.map fun r =>
        if r.deviceId = deviceId then { r with clock := now } else r
      queue := s.queue.tail }
  else if s.windowFullAt.any fun fullAt => fullAt ≤ now ∧ now - fullAt < fullRecheckMs then
    { s.endBeat t with
      reservations := reservations
      queue := s.queue.tail }
  else { s.setBeat t (.counting deviceId version now) with reservations := reservations }

/-- What `resolveAdvertisedVersion` does with the attempt it selected. -/
def UpdateServer.advertise (s : UpdateServer) (t : Nat) (device : UpdateDevice) (deviceId : Nat)
    (served : List Char) (now : Int) : UpdateServer :=
  match s.attempts.find (deviceId, served) with
  | none => s.enqueue t deviceId served now
  | some a =>
    if a.lastOfferedAt.any (now - · < updateOfferMinIntervalMs) then s.endBeat t
    else if a.phase.isProgress ∧ now - a.updatedAt < updateAttemptTimeoutMs then s.endBeat t
    else if a.phase.isFresh ∨ a.offeredCount < updateRequestMaxOffers then
      s.enqueue t deviceId served now
    else s.setBeat t (.abandoning device deviceId served now)

/-- The next statement of a heartbeat, or what it does between two awaits. -/
def beatNext (s : UpdateServer) (t : Nat) : Beat → Option UpdateServer
  | .loaded device deviceId reported => match s.served with
    | some served =>
      if shouldAdvertiseUpdate device served reported s.clock &&
          buildMatchesServed s.manifest served device.artifact then
        some (s.setBeat t (.selecting device deviceId served s.clock))
      else some (s.endBeat t)
    | none => some (s.endBeat t)
  | .selecting device deviceId served now => some (s.advertise t device deviceId served now)
  | .abandoning device deviceId served now =>
    let s' := match device.updateRequestedAt with
      | some readAt => s.setBeat t (.clearing deviceId readAt)
      | none => s.endBeat t
    some (s'.write (.noProgress (deviceId, served) now))
  | .clearing deviceId readAt =>
    some ((s.updateDevices (fun d device => d == deviceId &&
        device.updateRequestedAt.any fun requestedAt => |requestedAt - readAt| < 2)
      fun device => { device with
        updateRequestedAt := none
        updateRequestedVersion := none }).endBeat t)
  | .queued deviceId version now =>
    if s.queue.head? = some t then some (s.reserve t deviceId version now) else none
  | .counting deviceId version now =>
    some (s.setBeat t (.counted deviceId version now (countRolloutOffersInWindow s.attempts now)))
  | .counted deviceId version now offers =>
    if rolloutWindowHasRoom offers s.reservations.length then
      some { s.setBeat t (.granted deviceId version) with
        windowFullAt := none
        reservations := s.reservations.filter (·.deviceId ≠ deviceId) ++ [⟨deviceId, now, now⟩]
        queue := s.queue.tail }
    else some { s.endBeat t with
      windowFullAt := some now
      queue := s.queue.tail }
  -- the frame is written, or the response will be
  | .granted deviceId version => some (s.setBeat t (.recording deviceId version s.clock))
  | .recording deviceId version now =>
    some ((s.setBeat t (.releasing deviceId)).write (.recordOffer deviceId version now))
  | .releasing deviceId =>
    some { s.endBeat t with reservations := s.reservations.filter (·.deviceId ≠ deviceId) }

/-- A database error, or a channel that is closed when the frame is to be written. -/
def beatFail (s : UpdateServer) (t : Nat) : Beat → Option UpdateServer
  | .selecting .. | .abandoning .. | .clearing .. | .granted .. => some (s.endBeat t)
  | .counting .. => some { s.endBeat t with queue := s.queue.tail }
  | .recording deviceId _ _ => some (s.setBeat t (.releasing deviceId))
  | .loaded .. | .queued .. | .counted .. | .releasing .. => none

/-! ## Steps -/

inductive UpdateAction
  /-- Time passes. -/
  | tick (clock : Int)
  | serve (version : Option (List Char)) (manifest : Option (List (List Char × List Char)))
  /-- Any other change of a device. -/
  | setDevice (deviceId : Nat) (device : UpdateDevice)
  /-- The outcome of the attempts on a heartbeat. -/
  | reconcile (t deviceId : Nat) (reported : List Char) (connectedAt : Option Int)
  | request (t : Nat) (ids : List Nat) (tenantId : Nat)
  /-- An `update_status` frame. -/
  | status (t deviceId tenantId : Nat) (st : ParsedUpdateStatus)
  /-- The legacy updating signal. -/
  | updating (t deviceId tenantId : Nat)
  | cleanup (t : Nat)
  | cancel (deviceIds : List Nat)
  | next (t : Nat)
  | selectOpen (t : Nat) (choice : Option (List Char))
  /-- A database error ends a call. -/
  | abort (t : Nat)
  /-- A heartbeat that reports a version, empty where it does not. -/
  | beat (t deviceId : Nat) (agentVersion : List Char)
  | beatNext (t : Nat)
  | beatFail (t : Nat)

/-- A new call. -/
def UpdateServer.call (s : UpdateServer) (t : Nat) (proc : UpdateProc) : Option UpdateServer :=
  if (s.procs.get t).isNone then some (s.setProc t proc) else none

/-- One step. -/
def updateStep (s : UpdateServer) : UpdateAction → Option UpdateServer
  | .tick clock => if s.clock ≤ clock then some { s with clock := clock } else none
  | .serve version manifest => some { s with served := version, manifest := manifest }
  | .setDevice deviceId device => some { s with devices := s.devices.put deviceId device }
  | .reconcile t deviceId reported connectedAt =>
    if reported = [] then none else s.call t (.reconcileSelect deviceId reported s.clock connectedAt)
  | .request t ids tenantId => match s.served with
    | some served => s.call t (.requestSelect ids tenantId served)
    | none => none
  | .status t deviceId tenantId st => s.call t (.statusSelect deviceId tenantId st)
  | .updating t deviceId tenantId => s.call t (.updatingDevice deviceId tenantId s.clock)
  | .cleanup t => s.call t (.cleanupDevices s.clock)
  | .cancel deviceIds => some (s.write (.cancel deviceIds s.clock))
  | .next t => (s.procs.get t).bind (procNext s t)
  | .selectOpen t choice => (s.procs.get t).bind (Server.selectOpen s t choice)
  | .abort t => some (s.endProc t)
  | .beat t deviceId agentVersion => match s.devices.get deviceId with
    | some device =>
      if (s.beats.get t).isNone then some (s.setBeat t (.loaded device deviceId
        (if agentVersion ≠ [] then agentVersion else device.agentVersion.getD [])))
      else none
    | none => none
  | .beatNext t => (s.beats.get t).bind (beatNext s t)
  | .beatFail t => (s.beats.get t).bind (beatFail s t)

/-! ## What a step does -/

/-- The statement on the attempts that a call is about to run. -/
def UpdateProc.statement : UpdateProc → Option AttemptWrite
  | .reconcileLoop reported now connectedAt (a :: _) => reconcileWrite a reported now connectedAt
  | .requestAttempts eligible served now => some (.restoreBudget eligible served now)
  | .statusUpsert deviceId st now => some (.applyStatus deviceId st now)
  | .updatingWrite attempt now => some (.install attempt now)
  | .cleanupAttempts stuckIds now => some (.timeOut stuckIds now)
  | _ => none

/-- And a heartbeat. -/
def Beat.statement : Beat → Option AttemptWrite
  | .abandoning _ deviceId served now => some (.noProgress (deviceId, served) now)
  | .recording deviceId version now => some (.recordOffer deviceId version now)
  | _ => none

def UpdateServer.statement (s : UpdateServer) : UpdateAction → Option AttemptWrite
  | .cancel deviceIds => some (.cancel deviceIds s.clock)
  | .next t => (s.procs.get t).bind UpdateProc.statement
  | .beatNext t => (s.beats.get t).bind Beat.statement
  | _ => none

/-- A statement, or none, on the attempts. -/
def execOption (w : Option AttemptWrite) (t : Keyed attemptKey) : Keyed attemptKey :=
  match w with
  | some w => w.exec t
  | none => t

/-- The attempts and their log change by the statement only, and the clock not at all. -/
structure Executes (s : UpdateServer) (w : Option AttemptWrite) (s' : UpdateServer) : Prop where
  attempts : s'.attempts = execOption w s.attempts
  log : s'.log = w.elim s.log (s.log ++ ·.events s.attempts)
  clock : s'.clock = s.clock

/-- And the offers are left alone. -/
structure ProcExecutes (s : UpdateServer) (w : Option AttemptWrite) (s' : UpdateServer) : Prop
    extends Executes s w s' where
  beats : s'.beats = s.beats
  reservations : s'.reservations = s.reservations

section executes
variable {s s' : UpdateServer} {t : Nat}

theorem ProcExecutes.call {proc : UpdateProc} (h : s.call t proc = some s') :
    ProcExecutes s none s' := by
  unfold UpdateServer.call at h
  split at h
  · rw [← Option.some.inj h]
    exact ⟨⟨rfl, rfl, rfl⟩, rfl, rfl⟩
  · contradiction

theorem ProcExecutes.procNext {proc : UpdateProc} (h : procNext s t proc = some s') :
    ProcExecutes s proc.statement s' := by
  cases proc with
  | reconcileLoop reported now connectedAt rows =>
    cases rows with
    | nil =>
      rw [← Option.some.inj h]
      exact ⟨⟨rfl, rfl, rfl⟩, rfl, rfl⟩
    | cons a rows =>
      simp only [Server.procNext] at h
      show ProcExecutes s (reconcileWrite a reported now connectedAt) s'
      cases hw : reconcileWrite a reported now connectedAt with
      | none =>
        rw [hw] at h
        rw [← Option.some.inj h]
        exact ⟨⟨rfl, rfl, rfl⟩, rfl, rfl⟩
      | some w =>
        rw [hw] at h
        rw [← Option.some.inj h]
        exact ⟨⟨rfl, rfl, rfl⟩, rfl, rfl⟩
  | requestSelect | statusSelect | statusUpsert =>
    simp only [Server.procNext] at h
    split at h
    all_goals
      rw [← Option.some.inj h]
      exact ⟨⟨rfl, rfl, rfl⟩, rfl, rfl⟩
  | updatingSelect => contradiction
  | reconcileSelect | requestDevices | requestAttempts | statusDevice | updatingDevice | updatingRead
  | updatingWrite | cleanupDevices | cleanupAttempts | cleanupClear =>
    rw [← Option.some.inj h]
    exact ⟨⟨rfl, rfl, rfl⟩, rfl, rfl⟩

theorem ProcExecutes.selectOpen {choice : Option (List Char)} {proc : UpdateProc}
    (h : selectOpen s t choice proc = some s') : ProcExecutes s none s' := by
  unfold Server.selectOpen at h
  split at h
  · dsimp only at h
    split at h
    · split at h
      · rw [← Option.some.inj h]
        exact ⟨⟨rfl, rfl, rfl⟩, rfl, rfl⟩
      · contradiction
    · split at h
      · contradiction
      · split at h
        · split at h
          · rw [← Option.some.inj h]
            exact ⟨⟨rfl, rfl, rfl⟩, rfl, rfl⟩
          · rw [← Option.some.inj h]
            exact ⟨⟨rfl, rfl, rfl⟩, rfl, rfl⟩
        · rw [← Option.some.inj h]
          exact ⟨⟨rfl, rfl, rfl⟩, rfl, rfl⟩
  · contradiction

theorem Executes.advertise (s : UpdateServer) (t : Nat) (device : UpdateDevice) (deviceId : Nat)
    (served : List Char) (now : Int) : Executes s none (s.advertise t device deviceId served now) := by
  unfold UpdateServer.advertise
  split
  · exact ⟨rfl, rfl, rfl⟩
  · split
    · exact ⟨rfl, rfl, rfl⟩
    · split
      · exact ⟨rfl, rfl, rfl⟩
      · split
        · exact ⟨rfl, rfl, rfl⟩
        · exact ⟨rfl, rfl, rfl⟩

theorem Executes.reserve (s : UpdateServer) (t deviceId : Nat) (version : List Char) (now : Int) :
    Executes s none (s.reserve t deviceId version now) := by
  unfold UpdateServer.reserve
  dsimp only
  split
  · exact ⟨rfl, rfl, rfl⟩
  · split
    · exact ⟨rfl, rfl, rfl⟩
    · exact ⟨rfl, rfl, rfl⟩

theorem Executes.beatNext {beat : Beat} (h : beatNext s t beat = some s') :
    Executes s beat.statement s' := by
  cases beat with
  | loaded device deviceId reported =>
    simp only [Server.beatNext] at h
    split at h
    · split at h
      · rw [← Option.some.inj h]
        exact ⟨rfl, rfl, rfl⟩
      · rw [← Option.some.inj h]
        exact ⟨rfl, rfl, rfl⟩
    · rw [← Option.some.inj h]
      exact ⟨rfl, rfl, rfl⟩
  | selecting device deviceId served now =>
    rw [← Option.some.inj h]
    exact .advertise s t device deviceId served now
  | abandoning | counted =>
    simp only [Server.beatNext] at h
    split at h
    · rw [← Option.some.inj h]
      exact ⟨rfl, rfl, rfl⟩
    · rw [← Option.some.inj h]
      exact ⟨rfl, rfl, rfl⟩
  | queued deviceId version now =>
    simp only [Server.beatNext] at h
    split at h
    · rw [← Option.some.inj h]
      exact .reserve s t deviceId version now
    · contradiction
  | clearing | counting | granted | recording | releasing =>
    rw [← Option.some.inj h]
    exact ⟨rfl, rfl, rfl⟩

theorem Executes.beatFail {beat : Beat} (h : beatFail s t beat = some s') : Executes s none s' := by
  cases beat with
  | loaded | queued | counted | releasing => contradiction
  | selecting | abandoning | clearing | granted | counting | recording =>
    rw [← Option.some.inj h]
    exact ⟨rfl, rfl, rfl⟩

end executes

/-- The actions of a heartbeat's offer. -/
def UpdateAction.isBeat : UpdateAction → Bool
  | .beat .. | .beatNext _ | .beatFail _ => true
  | _ => false

/-- All that a step does to the attempts, their log, the clock, the offers and the reservations. -/
structure Does (s : UpdateServer) (a : UpdateAction) (s' : UpdateServer) : Prop where
  attempts : s'.attempts = execOption (s.statement a) s.attempts
  log : s'.log = (s.statement a).elim s.log (s.log ++ ·.events s.attempts)
  clock : s.clock ≤ s'.clock
  slots : a.isBeat = false → s'.beats = s.beats ∧ s'.reservations = s.reservations

section does
variable {s s' : UpdateServer} {a : UpdateAction}

theorem ProcExecutes.does (h : ProcExecutes s (s.statement a) s') : Does s a s' :=
  ⟨h.attempts, h.log, le_of_eq h.clock.symm, fun _ => ⟨h.beats, h.reservations⟩⟩

theorem Executes.does (h : Executes s (s.statement a) s') (hbeat : a.isBeat = true) : Does s a s' := by
  refine ⟨h.attempts, h.log, le_of_eq h.clock.symm, ?_⟩
  intro hnot
  rw [hbeat] at hnot
  contradiction

/-- The inversion of a step. -/
theorem updateStep_does (h : updateStep s a = some s') : Does s a s' := by
  cases a with
  | tick clock =>
    simp only [updateStep] at h
    split at h
    · rename_i hle
      rw [← Option.some.inj h]
      exact ⟨rfl, rfl, hle, fun _ => ⟨rfl, rfl⟩⟩
    · contradiction
  | serve | setDevice | cancel | abort =>
    rw [← Option.some.inj h]
    exact ⟨rfl, rfl, le_refl s.clock, fun _ => ⟨rfl, rfl⟩⟩
  | reconcile t deviceId reported connectedAt =>
    simp only [updateStep] at h
    split at h
    · contradiction
    · exact (ProcExecutes.call h).does
  | request t ids tenantId =>
    simp only [updateStep] at h
    split at h
    · exact (ProcExecutes.call h).does
    · contradiction
  | status | updating | cleanup => exact (ProcExecutes.call h).does
  | next t =>
    obtain ⟨proc, ht, h⟩ := Option.bind_eq_some_iff.mp h
    apply ProcExecutes.does
    rw [UpdateServer.statement, ht]
    exact .procNext h
  | selectOpen t choice =>
    obtain ⟨proc, -, h⟩ := Option.bind_eq_some_iff.mp h
    exact (ProcExecutes.selectOpen h).does
  | beat t deviceId agentVersion =>
    simp only [updateStep] at h
    split at h
    · split at h
      · rw [← Option.some.inj h]
        exact ⟨rfl, rfl, le_refl s.clock, fun hnot => Bool.noConfusion hnot⟩
      · contradiction
    · contradiction
  | beatNext t =>
    obtain ⟨beat, ht, h⟩ := Option.bind_eq_some_iff.mp h
    refine Executes.does ?_ rfl
    rw [UpdateServer.statement, ht]
    exact .beatNext h
  | beatFail t =>
    obtain ⟨beat, -, h⟩ := Option.bind_eq_some_iff.mp h
    exact (Executes.beatFail h).does rfl

end does

/-! ## Where statements come from -/

/-- An offer comes from a heartbeat, the update of `setDeviceUpdating` from the select before it; and a
reverted attempt was installing or restarting. -/
def AttemptWrite.Origin (s : UpdateServer) (a : UpdateAction) : AttemptWrite → Prop
  | .recordOffer deviceId version now =>
    ∃ t, a = .beatNext t ∧ s.beats.get t = some (.recording deviceId version now)
  | .install attempt now => ∃ t, a = .next t ∧ s.procs.get t = some (.updatingWrite attempt now)
  | .revert _ phase _ => phase = .installing ∨ phase = .restarting
  | _ => True

/-- A step leaves the attempts alone or is one statement on them. -/
def StepWrites (s : UpdateServer) (a : UpdateAction) (s' : UpdateServer) : Prop :=
  (s'.attempts = s.attempts ∧ s'.log = s.log) ∨
    ∃ w : AttemptWrite, s'.attempts = w.exec s.attempts ∧ s'.log = s.log ++ w.events s.attempts ∧
      w.Origin s a

section origin
variable {s s' : UpdateServer} {a : UpdateAction} {w : AttemptWrite}

theorem origin_reconcileWrite {r : UpdateAttemptRow} {reported : List Char} {now : Int}
    {connectedAt : Option Int} (h : reconcileWrite r reported now connectedAt = some w) :
    w.Origin s a := by
  unfold reconcileWrite at h
  split at h
  · rw [← Option.some.inj h]
    trivial
  · split at h
    · contradiction
    · rename_i hphase
      split at h
      all_goals
        dsimp only at h
        split at h
        · rw [← Option.some.inj h]
          show r.phase = .installing ∨ r.phase = .restarting
          tauto
        · contradiction

theorem statement_origin (h : s.statement a = some w) : w.Origin s a := by
  cases a with
  | next t =>
    obtain ⟨proc, ht, h⟩ := Option.bind_eq_some_iff.mp h
    cases proc with
    | reconcileLoop reported at_ connectedAt rows =>
      cases rows with
      | nil => contradiction
      | cons r rows => exact origin_reconcileWrite h
    | updatingWrite attempt now =>
      rw [← Option.some.inj h]
      exact ⟨t, rfl, ht⟩
    | statusUpsert | requestAttempts | cleanupAttempts =>
      rw [← Option.some.inj h]
      trivial
    | reconcileSelect | requestSelect | requestDevices | statusSelect | statusDevice | updatingDevice
    | updatingRead | updatingSelect | cleanupDevices | cleanupClear => contradiction
  | beatNext t =>
    obtain ⟨b, ht, h⟩ := Option.bind_eq_some_iff.mp h
    cases b with
    | abandoning =>
      rw [← Option.some.inj h]
      trivial
    | recording =>
      rw [← Option.some.inj h]
      exact ⟨t, rfl, ht⟩
    | loaded | selecting | clearing | queued | counting | counted | granted | releasing => contradiction
  | cancel =>
    rw [← Option.some.inj h]
    trivial
  | tick | serve | setDevice | reconcile | request | status | updating | cleanup | selectOpen | abort
  | beat | beatFail => contradiction

theorem updateStep_writes (h : updateStep s a = some s') : StepWrites s a s' := by
  have hdoes := updateStep_does h
  have hattempts := hdoes.attempts
  have hlog := hdoes.log
  cases hw : s.statement a with
  | none =>
    rw [hw] at hattempts hlog
    exact .inl ⟨hattempts, hlog⟩
  | some w =>
    rw [hw] at hattempts hlog
    exact .inr ⟨w, hattempts, hlog, statement_origin hw⟩

end origin

end Obliguard.Server

import Mathlib.Data.List.Sort
import Obliguard.Lib.Keyed
import Obliguard.Lib.ReadCommitted
import Obliguard.Lib.Runs
import Obliguard.Lib.Text

/-!
# Live alerts, statement by statement

The incidents of `liveAlert.service.ts`. `raiseIncident` is a transaction under the advisory lock of
its incident; `resolveIncidents` runs one transaction for each chunk of locks, and its `UPDATE` may
meet rows of incidents that it has not locked; `trimTenant` and `cleanup` are single statements
without a lock. `alertStep` interleaves them at the granularity of statements, under read committed
isolation.
-/

namespace Obliguard.Server

open ReadCommitted Runs Text

/-! ## Rows -/

inductive LiveAlertSeverity
  | down | up | warning | info
deriving DecidableEq

inductive LiveAlertIncidentKind
  | agentOffline | banBurst | blocklistSyncFailed | mikrotikSyncFailed | agentUpdateFailed
  | agentPending
deriving DecidableEq

/-- A row of `live_alerts`, without its id. -/
structure LiveAlert where
  tenantId : Nat
  severity : LiveAlertSeverity
  title : String
  message : String
  navigateTo : Option String
  stableKey : Option String
  createdAt : Int
  incidentKind : Option LiveAlertIncidentKind
  deviceId : Option Nat
  resolvedAt : Option Int
  occurrences : Nat
  updatedAt : Option Int
deriving DecidableEq

/-- `resolved_at IS NULL`. -/
def LiveAlert.active (r : LiveAlert) : Bool := r.resolvedAt.isNone

/-- A tenant and a stable key. -/
abbrev Incident := Nat × String

def LiveAlert.incident (r : LiveAlert) : Option Incident := r.stableKey.map (r.tenantId, ·)

def LiveAlert.resolve (now : Int) (r : LiveAlert) : LiveAlert := { r with resolvedAt := some now }

/-- No index of `live_alerts` is unique. -/
def noKey (_ : LiveAlert) : Option Unit := none

/-- `LIVE_ALERTS_PER_TENANT`. -/
def liveAlertsPerTenant : Nat := 500

/-- `RESOLVE_CHUNK`. -/
def resolveChunk : Nat := 200

structure RaiseIncidentInput where
  tenantId : Nat
  kind : LiveAlertIncidentKind
  stableKey : String
  deviceId : Option Nat
  title : String
  message : String
  severity : LiveAlertSeverity
  link : Option String
deriving DecidableEq

def RaiseIncidentInput.incident (input : RaiseIncidentInput) : Incident :=
  (input.tenantId, input.stableKey)

/-- `assertIncidentInput`. -/
def assertIncidentInput (input : RaiseIncidentInput) : Bool :=
  decide (0 < input.tenantId) && decide (input.stableKey ≠ "") &&
    decide (utf16Length input.stableKey.toList ≤ 255)

/-- The active row of an incident, raised again. -/
def LiveAlert.bump (input : RaiseIncidentInput) (now : Int) (r : LiveAlert) : LiveAlert :=
  { r with
    occurrences := r.occurrences + 1
    updatedAt := some now
    title := input.title
    message := input.message
    navigateTo := input.link
    incidentKind := some input.kind
    deviceId := input.deviceId }

/-- A new row. -/
def RaiseIncidentInput.row (input : RaiseIncidentInput) (now : Int) : LiveAlert where
  tenantId := input.tenantId
  severity := input.severity
  title := input.title
  message := input.message
  navigateTo := input.link
  stableKey := some input.stableKey
  createdAt := now
  incidentKind := some input.kind
  deviceId := input.deviceId
  resolvedAt := none
  occurrences := 1
  updatedAt := some now

structure ResolveIncidentsInput where
  tenantId : Option Nat
  stableKey : Option String
  deviceId : Option Nat
  kind : Option LiveAlertIncidentKind
deriving DecidableEq

/-- The `stableKey` of the selector; an empty one is none. -/
def ResolveIncidentsInput.key (sel : ResolveIncidentsInput) : Option String :=
  sel.stableKey.filter (· ≠ "")

/-- The condition of `match`. -/
def ResolveIncidentsInput.selects (sel : ResolveIncidentsInput) (r : LiveAlert) : Bool :=
  r.active && sel.tenantId.all (r.tenantId == ·) && sel.key.all (r.stableKey == some ·) &&
    sel.deviceId.all (r.deviceId == some ·) && sel.kind.all (r.incidentKind == some ·)

/-! ## Calls -/

inductive AlertCall
  /-- `raiseIncident` before it has the lock of its incident. -/
  | raiseLocking (input : RaiseIncidentInput) (now : Int)
  /-- Before it reads the active rows. -/
  | raiseReading (input : RaiseIncidentInput) (now : Int)
  /-- Before it resolves those that it does not keep. -/
  | raiseClosing (input : RaiseIncidentInput) (now : Int) (keep : Option Nat) (stale : List Nat)
  | raiseBumping (input : RaiseIncidentInput) (now : Int) (keep : Nat)
  | raiseInserting (input : RaiseIncidentInput) (now : Int)
  | raiseCommitting (input : RaiseIncidentInput) (id : Nat) (created : Bool)
  /-- Committed, with a new row. -/
  | raiseTrimming (input : RaiseIncidentInput) (id : Nat)
  | raiseAnnouncing (id : Nat)
  /-- `resolveIncidents` before it reads the candidates. -/
  | resolveReading (sel : ResolveIncidentsInput)
  /-- A transaction that waits for its locks; those of the ones to come; the ids resolved so far. -/
  | resolveLocking (sel : ResolveIncidentsInput) (locks : List Int) (rest : List (List Int))
    (ids : List Nat)
  | resolveCommitting (sel : ResolveIncidentsInput) (rest : List (List Int)) (ids got : List Nat)
  /-- `cleanup` before its `UPDATE`, and before its `DELETE`. -/
  | cleanupResolving (retentionDays : Nat)
  | cleanupDeleting (retentionDays : Nat)
deriving DecidableEq

/-- Once the stale rows are resolved. -/
def afterClosing (input : RaiseIncidentInput) (now : Int) : Option Nat → AlertCall
  | some keep => .raiseBumping input now keep
  | none => .raiseInserting input now

structure AlertState where
  alerts : Store LiveAlert
  /-- The advisory locks, with the calls that hold them. -/
  locks : List (Int × Nat)
  /-- The ids of `agent_devices`. -/
  devices : List Nat
  calls : Registry AlertCall
  /-- Calls started so far; each is numbered by it. -/
  started : Nat
  /-- The rows that came to be committed active, and those that came to be committed resolved. -/
  opened : List Nat
  resolved : List Nat
  /-- The rows opened, with the call that committed them, and those reported with `created: true`. -/
  openedBy : List (Nat × Nat)
  created : List (Nat × Nat)
  /-- The rows resolved by a `resolveIncidents`, and those returned by one. -/
  resolvedBy : List (Nat × Nat)
  returned : List (Nat × Nat)

namespace AlertState

def start (s : AlertState) (call : AlertCall) : AlertState :=
  { s with calls := s.calls.put s.started call, started := s.started + 1 }

def setCall (s : AlertState) (c : Nat) (call : AlertCall) : AlertState :=
  { s with calls := s.calls.put c call }

def endCall (s : AlertState) (c : Nat) : AlertState := { s with calls := s.calls.erase c }

/-- `pg_advisory_xact_lock`, unless another transaction holds the lock. -/
def lock (s : AlertState) (c : Nat) (l : Int) : Option AlertState :=
  if s.locks.all fun e => e.1 != l || e.2 == c then some { s with locks := (l, c) :: s.locks }
  else none

/-- `COMMIT`, which ends the locks of the transaction. -/
def commit (s : AlertState) (c : Nat) : AlertState :=
  { s with alerts := s.alerts.commit c, locks := s.locks.filter (·.2 != c) }

/-- `DELETE`, unless a row is locked. -/
def delete (s : AlertState) (p : Nat → LiveAlert → Bool) : Option AlertState :=
  if (s.alerts.select none p).any fun i => (s.alerts.cells i).lockedByOther none then none
  else some { s with alerts := s.alerts.delete p }

/-- The committed rows of a tenant that come before a row: the active ones first, then the newest. -/
def before (s : AlertState) (i : Nat) (r : LiveAlert) : List Nat :=
  s.alerts.select none fun j r' => r'.tenantId == r.tenantId &&
    ((r'.active && !r.active) || (r'.active == r.active && decide (i < j)))

/-- `trimTenant`. -/
def trimTenant (s : AlertState) (tenantId : Nat) : Option AlertState :=
  s.delete fun i r => r.tenantId == tenantId && decide (liveAlertsPerTenant ≤ (s.before i r).length)

/-- The `DELETE` of `cleanup`. -/
def expires (cutoff : Int) (r : LiveAlert) : Bool :=
  match r.resolvedAt with
  | some at' => decide (at' < cutoff)
  | none => r.incidentKind.isNone && decide (r.createdAt < cutoff)

/-- The active rows of an incident that a call sees, `ORDER BY id DESC`. -/
def activeRows (s : AlertState) (c : Nat) (incident : Incident) : List Nat :=
  (s.alerts.select (some c) fun _ r => r.active && r.incident == some incident).reverse

/-- The row among them to keep. -/
def keepOf (s : AlertState) (c : Nat) (severity : LiveAlertSeverity) (active : List Nat) :
    Option Nat :=
  active.find? fun i => ((s.alerts.cells i).view (some c)).any (·.severity == severity)

/-- The incidents to lock for a selector. -/
def lockKeys (s : AlertState) (sel : ResolveIncidentsInput) : List Incident :=
  let candidates := s.alerts.select none fun _ r => sel.selects r
  let keys := candidates.filterMap fun i => (s.alerts.cells i).committed.bind fun r =>
    (r.stableKey.filter (· ≠ "")).map (r.tenantId, ·)
  match sel.tenantId, sel.key with
  | some tenantId, some key => (keys ++ [(tenantId, key)]).dedup
  | _, _ => keys.dedup

end AlertState

/-- The locks of a chunk of incidents, in the order of `lockIncidents`. -/
def lockIds (hashtext : Incident → Int) (keys : List Incident) : List Int :=
  ((keys.map hashtext).dedup).mergeSort (· ≤ ·)

/-- The chunks of `resolveIncidents`: at least one. -/
def lockChunks (hashtext : Incident → Int) (keys : List Incident) : List Int × List (List Int) :=
  match (keys.toChunks resolveChunk).map (lockIds hashtext) with
  | [] => ([], [])
  | chunk :: rest => (chunk, rest)

/-- The call after the transaction of a chunk. -/
def AlertState.nextChunk (s : AlertState) (c : Nat) (sel : ResolveIncidentsInput)
    (rest : List (List Int)) (ids : List Nat) : AlertState :=
  match rest with
  | [] => { s with returned := s.returned ++ ids.map (c, ·) }.endCall c
  | chunk :: rest => s.setCall c (.resolveLocking sel chunk rest ids)

/-- The next statement of a call. -/
def alertNext (hashtext : Incident → Int) (s : AlertState) (c : Nat) (now : Int) :
    AlertCall → Option AlertState
  | .raiseLocking input at' =>
    (s.lock c (hashtext input.incident)).map (·.setCall c (.raiseReading input at'))
  | .raiseReading input at' =>
    let active := s.activeRows c input.incident
    let keep := s.keepOf c input.severity active
    match active.filter (some · ≠ keep) with
    | [] => some (s.setCall c (afterClosing input at' keep))
    | stale => some (s.setCall c (.raiseClosing input at' keep stale))
  | .raiseClosing input at' keep stale =>
    match s.alerts.update noKey (some c) (fun i r => stale.contains i && r.active)
        (fun _ r => r.resolve at') with
    | .done (_, alerts) => some ({ s with alerts := alerts }.setCall c (afterClosing input at' keep))
    | _ => none
  | .raiseBumping input at' keep =>
    match s.alerts.update noKey (some c) (fun i r => i == keep && r.active)
        (fun _ r => r.bump input at') with
    | .done ([], _) => some (s.setCall c (.raiseInserting input at'))
    | .done (_, alerts) =>
      some ({ s with alerts := alerts }.setCall c (.raiseCommitting input keep false))
    | _ => none
  | .raiseInserting input at' =>
    match s.alerts.insert noKey (some c) (input.row at') with
    | .done alerts =>
      some ({ s with alerts := alerts }.setCall c (.raiseCommitting input s.alerts.seq true))
    | _ => none
  | .raiseCommitting input id created =>
    if created then some ((s.commit c).setCall c (.raiseTrimming input id))
    else some ((s.commit c).endCall c)
  | .raiseTrimming input id =>
    (s.trimTenant input.tenantId).map (·.setCall c (.raiseAnnouncing id))
  | .raiseAnnouncing id => some ({ s with created := s.created ++ [(c, id)] }.endCall c)
  | .resolveReading sel =>
    let keys := s.lockKeys sel
    if keys = [] ∧ s.alerts.select none (fun _ r => sel.selects r) = [] then some (s.endCall c)
    else
      let chunks := lockChunks hashtext keys
      some (s.setCall c (.resolveLocking sel chunks.1 chunks.2 []))
  | .resolveLocking sel (l :: locks) rest ids =>
    (s.lock c l).map (·.setCall c (.resolveLocking sel locks rest ids))
  | .resolveLocking sel [] rest ids =>
    match s.alerts.update noKey (some c) (fun _ r => sel.selects r) (fun _ r => r.resolve now) with
    | .done (got, alerts) =>
      some ({ s with alerts := alerts }.setCall c (.resolveCommitting sel rest ids got))
    | _ => none
  | .resolveCommitting sel rest ids got => some ((s.commit c).nextChunk c sel rest (ids ++ got))
  | .cleanupResolving retentionDays =>
    match s.alerts.update noKey none
        (fun _ r => r.active && r.deviceId.any fun d => !s.devices.contains d)
        (fun _ r => r.resolve now) with
    | .done (_, alerts) =>
      some ({ s with alerts := alerts }.setCall c (.cleanupDeleting retentionDays))
    | _ => none
  | .cleanupDeleting retentionDays =>
    (s.delete fun _ r => AlertState.expires (now - max 1 retentionDays * 86400000) r).map
      (·.endCall c)

inductive AlertAction
  | raise (input : RaiseIncidentInput) (now : Int)
  | resolve (sel : ResolveIncidentsInput)
  | trim (tenantId : Nat)
  | cleanup (retentionDays : Nat)
  /-- Devices are added and deleted. -/
  | setDevices (devices : List Nat)
  | next (c : Nat) (now : Int)

/-- The rows that come to be committed active. -/
def newlyActive (before after : Store LiveAlert) : List Nat :=
  (List.range after.seq).filter fun i =>
    (before.cells i).committed.isNone && (after.cells i).committed.any (·.active)

/-- The active rows that come to be committed resolved. -/
def newlyResolved (before after : Store LiveAlert) : List Nat :=
  (List.range before.seq).filter fun i =>
    (before.cells i).committed.any (·.active) && (after.cells i).committed.any (!·.active)

/-- One step, without the history. -/
def alertAct (hashtext : Incident → Int) (s : AlertState) : AlertAction → Option AlertState
  | .raise input now =>
    if assertIncidentInput input then some (s.start (.raiseLocking input now)) else none
  | .resolve sel =>
    if sel.key = none ∧ sel.deviceId = none then none else some (s.start (.resolveReading sel))
  | .trim tenantId => s.trimTenant tenantId
  | .cleanup retentionDays => some (s.start (.cleanupResolving retentionDays))
  | .setDevices devices => some { s with devices := devices }
  | .next c now => (s.calls.get c).bind (alertNext hashtext s c now)

/-- The call whose transaction a step commits, if it is one of `resolveIncidents`. -/
def resolverOf (s : AlertState) (c : Nat) : Bool :=
  match s.calls.get c with
  | some (.resolveCommitting ..) => true
  | _ => false

/-- The history after a step. -/
def AlertState.record (s : AlertState) (a : AlertAction) (s' : AlertState) : AlertState :=
  let opened := newlyActive s.alerts s'.alerts
  let resolved := newlyResolved s.alerts s'.alerts
  { s' with
    opened := s.opened ++ opened
    resolved := s.resolved ++ resolved
    openedBy := match a with
      | .next c _ => s.openedBy ++ opened.map (c, ·)
      | _ => s.openedBy
    resolvedBy := match a with
      | .next c _ => if resolverOf s c then s.resolvedBy ++ resolved.map (c, ·) else s.resolvedBy
      | _ => s.resolvedBy }

/-- One step. -/
def alertStep (hashtext : Incident → Int) (s : AlertState) (a : AlertAction) : Option AlertState :=
  (alertAct hashtext s a).map (s.record a)

/-- Rows with nothing under way. -/
def AlertState.init (alerts : Store LiveAlert) (devices : List Nat) : AlertState :=
  ⟨alerts, [], devices, .empty, 0, [], [], [], [], [], []⟩

end Obliguard.Server

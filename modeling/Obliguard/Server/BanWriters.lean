import Obliguard.Lib.Keyed
import Obliguard.Lib.ReadCommitted
import Obliguard.Lib.Runs
import Obliguard.Server.BanEngine
import Obliguard.Server.ExternalBans
import Obliguard.Server.RemoteBlocklist

/-!
# The writers of `ip_bans`, statement by statement

`create`, `promoteToGlobal` and `createFromExternal` of `ban.service.ts` deactivate the expired rows of
their target (`expireStale`), and then look for a duplicate and write in one transaction, under an
advisory lock of the target. `createRemoteBans` and `createAutoBans` take no lock: they skip what an
active global row covers, and leave a key that is taken to the unique index (migration 032). Every
Lift, wipe, expiry and withdrawal is a `deactivateBans`. `banStep` interleaves them at the granularity
of statements, under read committed isolation.

A statement reads the tables as `BanState.db` shows them; it is then the same selection as in the
operation that runs alone.
-/

namespace Obliguard.Server

open Bans IpValidation ReadCommitted

/-! ## Rows -/

/-- The key of a row in the unique index on active rows. -/
def activeIndex (b : BanRow) : Option (Inet × Nat × Scope × Nat × Nat) :=
  if b.isActive then some (activeKey b) else none

/-- The rows that an executor sees. Row `i` has the id `i + 1`. -/
def visibleBans (bans : Store BanRow) (tx : Option Nat) : Table BanRow.id where
  rows := (List.range bans.seq).filterMap fun i =>
    ((bans.cells i).view tx).map fun b => { b with id := i + 1 }
  seq := bans.seq + 1
  nodup := by
    rw [List.map_filterMap]
    refine List.Nodup.filterMap ?_ List.nodup_range
    intro i j k hi hj
    simp only [Option.mem_def, Option.map_map, Option.map_eq_some_iff, Function.comp_apply] at hi hj
    obtain ⟨-, -, rfl⟩ := hi
    obtain ⟨-, -, hj⟩ := hj
    exact (Nat.succ.inj hj).symm
  seq_pos := Nat.succ_pos _
  bounds := by
    intro b hb
    obtain ⟨i, hi, hb⟩ := List.mem_filterMap.mp hb
    obtain ⟨-, -, rfl⟩ := Option.map_eq_some_iff.mp hb
    have := List.mem_range.mp hi
    exact ⟨Nat.succ_pos _, Nat.succ_lt_succ this⟩

/-- What a ban is about: its network, scope, scope id and tenant. -/
def BanRow.group (b : BanRow) : Net × Scope × Option Nat × Option Nat :=
  (b.net, b.scope, b.scopeId, b.tenantId)

/-- Active and unexpired. -/
def BanRow.live (now : Int) (b : BanRow) : Bool := b.isActive && b.unexpired now

/-- The rows that share what they are about have one live row at most. -/
def OneLive (bans : Store BanRow) (now : Int) : Prop :=
  ∀ i j b b', (bans.cells i).committed = some b → (bans.cells j).committed = some b' →
    b.live now = true → b'.live now = true → b.group = b'.group → i = j

/-! ## Calls -/

/-- A write under the lock of its target. -/
inductive BanWrite
  | create (c : Caller) (nb : NewBan)
  | promote (banId : Nat) (t : BanTarget)
  | external (args : ExternalPush) (t : BanTarget)

def BanWrite.target : BanWrite → BanTarget
  | .create _ nb => nb.target
  | .promote _ t | .external _ t => t

/-- The name of the advisory lock. -/
def BanWrite.lockName : BanWrite → String
  | .create _ nb => "ip_bans:" ++ nb.target.cidr
  | .promote _ t => "ip_bans:" ++ t.cidr
  | .external _ t => "ip_bans:" ++ t.address

/-- The whitelist check inside the transaction; an external ban is checked before it. -/
def BanWrite.whitelisted (db : Db) : BanWrite → Bool
  | .create _ nb =>
    isWhitelistedOverlapping db nb.target.net (whitelistContextOf nb.scope nb.scopeId nb.tenantId)
  | .promote _ t => isWhitelistedOverlapping db t.net {}
  | .external _ _ => false

/-- What a call does once its rows are deactivated. -/
inductive AfterLift
  | finish
  | write (w : BanWrite)
  | insertAutos (policy : BanPolicy) (free : List (AutoBanCandidate × BanTarget))

/-- An auto-ban with its expiry. -/
abbrev NewAutoBan := AutoBanCandidate × BanTarget × Option Int

inductive BanCall
  /-- `promoteToGlobal` before it reads the row. -/
  | promoteReading (env : SafetyEnv) (c : Caller) (banId : Nat)
  /-- Before `expireStale` reads the expired rows of the target. -/
  | staleReading (w : BanWrite)
  | deactivating (reason : LiftReason) (chunks : List (List Nat)) (next : AfterLift)
  /-- Before `BEGIN`, which fixes the `now()` of the transaction. -/
  | beginning (w : BanWrite)
  | locking (w : BanWrite) (began : Int)
  | screening (w : BanWrite) (began : Int)
  /-- Before it looks for a duplicate. -/
  | checking (w : BanWrite) (began : Int)
  | writing (w : BanWrite) (began : Int)
  /-- `createFromExternal` with the active external row that it has read. -/
  | extending (args : ExternalPush) (t : BanTarget) (began : Int) (current : BanRow)
  | committing
  /-- `createRemoteBans` before the `INSERT ... SELECT` of a chunk, and among its rows. -/
  | remoteSelecting (o : RemoteOptions) (chunks : List (List RemoteTarget))
  | remoteInserting (o : RemoteOptions) (targets : List RemoteTarget)
    (chunks : List (List RemoteTarget))
  /-- `createAutoBans` before it looks up the covering rows, before it reads the whitelist, and among
  the rows of its inserts. -/
  | autoReading (env : SafetyEnv) (policy : BanPolicy) (candidates : List AutoBanCandidate)
  | autoChoosing (policy : BanPolicy) (free : List (AutoBanCandidate × BanTarget))
  | autoInserting (chunks : List (List NewAutoBan))

structure BanState where
  bans : Store BanRow
  /-- The other tables. -/
  tables : Db
  /-- The clock of the database. -/
  now : Int
  /-- The advisory locks, with the calls that hold them. -/
  locks : List (Int × Nat)
  calls : Registry BanCall
  /-- Calls started so far; each is numbered by it. -/
  started : Nat

namespace BanState

/-- The tables as an executor sees them. -/
def db (s : BanState) (tx : Option Nat) : Db := { s.tables with bans := visibleBans s.bans tx }

def start (s : BanState) (call : BanCall) : BanState :=
  { s with calls := s.calls.put s.started call, started := s.started + 1 }

def setCall (s : BanState) (c : Nat) (call : BanCall) : BanState :=
  { s with calls := s.calls.put c call }

def endCall (s : BanState) (c : Nat) : BanState := { s with calls := s.calls.erase c }

/-- `pg_advisory_xact_lock`, unless another transaction holds the lock. -/
def lock (s : BanState) (c : Nat) (l : Int) : Option BanState :=
  if s.locks.all fun e => e.1 != l || e.2 == c then some { s with locks := (l, c) :: s.locks }
  else none

/-- `COMMIT`, which ends the locks of the transaction. -/
def commit (s : BanState) (c : Nat) : BanState :=
  { s with bans := s.bans.commit c, locks := s.locks.filter (·.2 != c) }

/-- `ROLLBACK`, with the end of the call. -/
def fail (s : BanState) (c : Nat) : BanState :=
  { s with
    bans := s.bans.rollback c
    locks := s.locks.filter (·.2 != c)
    calls := s.calls.erase c }

def afterLift (s : BanState) (c : Nat) : AfterLift → BanState
  | .finish => s.endCall c
  | .write w => s.setCall c (.beginning w)
  | .insertAutos policy free => s.setCall c (.autoChoosing policy free)

/-- The duplicate check. The transaction has written nothing yet. -/
def check (s : BanState) (c : Nat) (began : Int) : BanWrite → BanState
  | .create caller nb =>
    match findDuplicate (s.db none) began nb with
    | some _ => s.fail c
    | none => s.setCall c (.writing (.create caller nb) began)
  | .promote banId t =>
    if (s.db none).bans.rows.any fun b => sameTarget t.net b && b.isActive && b.unexpired began &&
        b.scope == .global then s.fail c
    else s.setCall c (.writing (.promote banId t) began)
  | .external args t =>
    match currentGlobal (s.db none) t.net with
    | some b =>
      if b.banType = .external then s.setCall c (.extending args t began b)
      else s.setCall c .committing
    | none => s.setCall c (.writing (.external args t) began)

/-- The statement that makes the row. A promotion that meets no row any more fails. -/
def write (s : BanState) (c : Nat) : BanWrite → Outcome (Store BanRow)
  | .create caller nb => s.bans.insert activeIndex (some c) (manualRow caller nb (s.bans.seq + 1))
  | .promote banId t =>
    match s.bans.update activeIndex (some c)
        (fun i b => i + 1 == banId && b.isActive && b.scope != .global)
        (fun _ b => b.promoted t.net) with
    | .done ([], _) => .violation
    | .done (_, bans) => .done bans
    | .violation => .violation
    | .blocked => .blocked
  | .external args t =>
    s.bans.insert activeIndex (some c) (externalRow args t.net (s.bans.seq + 1))

/-- The `UPDATE` of a row pushed again, to the values computed from the row as it was read. -/
def extend (s : BanState) (c : Nat) (args : ExternalPush) (current : BanRow) :
    Outcome (List Nat × Store BanRow) :=
  s.bans.update activeIndex (some c) (fun i _ => i + 1 == current.id)
    (fun _ b => { b with
      expiresAt := (current.pushedAgain args).expiresAt
      originApp := (current.pushedAgain args).originApp })

/-- One row of an `INSERT ... ON CONFLICT DO NOTHING`. -/
def insertIgnore (s : BanState) (c : Nat) (mk : Nat → BanRow) : Option BanState :=
  match s.bans.insert activeIndex (some c) (mk (s.bans.seq + 1)) with
  | .done bans => some { s with bans := bans }
  | .violation => some s
  | .blocked => none

end BanState

/-- The next statement of a call; `at'` is the clock of the server. -/
def banNext (hashtext : String → Int) (s : BanState) (c : Nat) (at' : Int) : BanCall → Option BanState
  | .promoteReading env caller banId =>
    match promoteChecks env caller at' banId (s.db none) with
    | .error _ => some (s.endCall c)
    | .ok t => some (s.setCall c (.staleReading (.promote banId t)))
  | .staleReading w =>
    let stale := (s.db none).bans.rows.filter fun b => sameTarget w.target.net b && b.isActive &&
      b.expired s.now
    some (s.setCall c (.deactivating .expiry (liftChunks (stale.map (·.id))) (.write w)))
  | .deactivating _ [] next => some (s.afterLift c next)
  | .deactivating reason (chunk :: chunks) next =>
    match s.bans.update activeIndex none (fun i b => chunk.contains (i + 1) && b.isActive)
        (fun _ b => b.deactivated s.now reason) with
    | .done (_, bans) => some ({ s with bans := bans }.setCall c (.deactivating reason chunks next))
    | _ => none
  | .beginning w => some (s.setCall c (.locking w s.now))
  | .locking w began => (s.lock c (hashtext w.lockName)).map (·.setCall c (.screening w began))
  | .screening w began =>
    if w.whitelisted s.tables then some (s.fail c) else some (s.setCall c (.checking w began))
  | .checking w began => some (s.check c began w)
  | .writing w _ =>
    match s.write c w with
    | .done bans => some ({ s with bans := bans }.setCall c .committing)
    | .violation => some (s.fail c)
    | .blocked => none
  | .extending args _ _ current =>
    match s.extend c args current with
    | .done (_, bans) => some ({ s with bans := bans }.setCall c .committing)
    | .violation => some (s.fail c)
    | .blocked => none
  | .committing => some ((s.commit c).endCall c)
  | .remoteSelecting _ [] => some (s.endCall c)
  | .remoteSelecting o (chunk :: chunks) =>
    some (s.setCall c (.remoteInserting o (chunk.filter (importable (s.db none) o)) chunks))
  | .remoteInserting o [] chunks => some ((s.commit c).setCall c (.remoteSelecting o chunks))
  | .remoteInserting o (t :: targets) chunks =>
    (s.insertIgnore c (remoteRow o t)).map (·.setCall c (.remoteInserting o targets chunks))
  | .autoReading env policy candidates =>
    let free := uncovered env at' candidates (s.db none).bans
    let ids := free.flatMap fun p => (covering (s.db none).bans p.2.net).map (·.id)
    some (s.setCall c (.deactivating .expiry (liftChunks ids) (.insertAutos policy free)))
  | .autoChoosing policy free =>
    let toBan := free.filter fun p => !isWhitelisted s.tables p.2.net {}
    let rows := toBan.map fun p => (p.1, p.2, autoExpiry policy at' (s.db none).bans p.2.net)
    some (s.setCall c (.autoInserting (slices autoInsertChunk rows)))
  | .autoInserting [] => some (s.endCall c)
  | .autoInserting ([] :: chunks) => some ((s.commit c).setCall c (.autoInserting chunks))
  | .autoInserting ((p :: rows) :: chunks) =>
    (s.insertIgnore c (autoRow p.1 p.2.1 p.2.2)).map (·.setCall c (.autoInserting (rows :: chunks)))

inductive BanAction
  /-- The clock of the database goes on. -/
  | tick (now : Int)
  /-- Something else writes the other tables. -/
  | setTables (tables : Db)
  | create (env : SafetyEnv) (c : Caller) (membershipChecked : Bool) (req : CreateBanRequest) (at' : Int)
  | promoteToGlobal (env : SafetyEnv) (c : Caller) (banId : Nat)
  | createFromExternal (env : SafetyEnv) (args : ExternalPush)
  | createRemoteBans (o : RemoteOptions) (targets : List RemoteTarget)
  | createAutoBans (env : SafetyEnv) (policy : BanPolicy) (candidates : List AutoBanCandidate)
  /-- `deactivateBans`, with the ids that a Lift, a wipe, the expiry job, a withdrawal or a sync has
  read. -/
  | deactivateBans (ids : List Nat) (reason : LiftReason)
  | next (c : Nat) (at' : Int)
  /-- A call fails where it stands: a lost connection, a deadlock. -/
  | abort (c : Nat)

/-- One step. -/
def banStep (hashtext : String → Int) (s : BanState) : BanAction → Option BanState
  | .tick now => if s.now ≤ now then some { s with now := now } else none
  | .setTables tables => some { s with tables := tables }
  | .create env c membershipChecked req at' =>
    match createChecks env c at' membershipChecked req (s.db none) with
    | .error _ => none
    | .ok nb => some (s.start (.staleReading (.create c nb)))
  | .promoteToGlobal env c banId => some (s.start (.promoteReading env c banId))
  | .createFromExternal env args =>
    match checkBanTarget env args.ip false with
    | .error _ => none
    | .ok t =>
      if isWhitelisted s.tables t.net {} then none
      else some (s.start (.staleReading (.external args t)))
  | .createRemoteBans o targets =>
    some (s.start (.remoteSelecting o (slices remoteInsertChunk targets)))
  | .createAutoBans env policy candidates => some (s.start (.autoReading env policy candidates))
  | .deactivateBans ids reason => some (s.start (.deactivating reason (liftChunks ids) .finish))
  | .next c at' => (s.calls.get c).bind (banNext hashtext s c at')
  | .abort c => if (s.calls.get c).isSome then some (s.fail c) else none

/-- Rows with nothing under way. -/
def BanState.init (bans : Store BanRow) (tables : Db) (now : Int) : BanState :=
  ⟨bans, tables, now, [], .empty, 0⟩

/-! ## What a duplicate check has to find -/

/-- The rows that a write must not join: those of the row it makes. -/
def BanWrite.rival : BanWrite → BanRow → Bool
  | .create _ nb, b => b.group == (nb.target.net, nb.scope, nb.scopeId, nb.tenantId)
  | .promote _ t, b => b.group == (t.net, .global, none, none)
  | .external _ t, b => b.net == t.net && b.scope == .global

/-- At its duplicate check, a write recognises every live row that it must not join. -/
def FindsRivals (s : BanState) (a : BanAction) : Prop :=
  match a with
  | .next c _ =>
    match s.calls.get c with
    | some (.checking w began) => ((s.db none).bans.rows.all fun b =>
        !(b.live began && w.rival b) || sameTarget w.target.net b) = true
    | _ => True
  | _ => True

instance (s : BanState) (a : BanAction) : Decidable (FindsRivals s a) := by
  unfold FindsRivals
  split
  · split
    · infer_instance
    · infer_instance
  · infer_instance

end Obliguard.Server

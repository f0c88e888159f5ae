import Obliguard.Server.BanTable

/-!
# Remote blocklists

`server/src/services/remoteBlocklist.service.ts` with `createRemoteBans` of `ban.service.ts`: the
entries of a list follow its source (`syncOne`), and `reconcileListBans` brings the list's global
bans in line with its entries. Bodies are given after transport and JSON decoding. Alerts, the sync
schedule, the contribution to obli.tools and the reputation rows are left out.
-/

namespace Obliguard.Server

open Bans IpValidation Text

/-! ## Bans of a source -/

/-- `REMOTE_INSERT_CHUNK`. -/
def remoteInsertChunk : Nat := 1000

/-- A checked target with its own reason, if any. -/
structure RemoteTarget where
  target : BanTarget
  reason : Option String

/-- The options of `createRemoteBans`. -/
structure RemoteOptions where
  originRef : OriginRef
  originTenantId : Option Nat
  reason : String
  whitelist : WhitelistMatchContext := {}
  respectLifts : Bool := false

def sliceReason (r : String) : String := String.ofList (utf16Take 500 r.toList)

/-- The row of an imported target. -/
def remoteRow (o : RemoteOptions) (t : RemoteTarget) (id : Nat) : BanRow where
  id := id
  target := Stored.ofNet t.target.net
  reason := some (((t.reason.filter fun r => r != "").map sliceReason).getD (sliceReason o.reason))
  banType := .remote
  scope := .global
  scopeId := none
  tenantId := none
  originTenantId := o.originTenantId
  originApp := none
  originRef := some o.originRef
  bannedByUserId := none
  expiresAt := none
  isActive := true
  liftedAt := none
  liftReason := none

theorem remoteRow_id (o : RemoteOptions) (t : RemoteTarget) (id : Nat) : (remoteRow o t id).id = id :=
  rfl

/-- `respectLifts`: an operator lifted a ban of the same source and target. -/
def liftedBefore (bans : Table BanRow.id) (o : RemoteOptions) (n : Net) : Bool :=
  bans.rows.any fun l => l.originRef == some o.originRef && !l.isActive &&
    l.liftReason == some .lift && l.target.networkSql == Inet.ofNet n

/-- The targets of a chunk that the `SELECT` of the insert keeps. -/
def importable (db : Db) (o : RemoteOptions) (t : RemoteTarget) : Bool :=
  !globallyCovered db.bans t.target.net && !isWhitelisted db t.target.net o.whitelist &&
    !(o.respectLifts && liftedBefore db.bans o t.target.net)

/-- One row of an `INSERT ... ON CONFLICT DO NOTHING`. -/
def insertRemote (o : RemoteOptions) (bans : Table BanRow.id) (t : RemoteTarget) : Table BanRow.id :=
  if uniqueConflict bans (remoteRow o t bans.seq) then bans
  else bans.insert (remoteRow o t) (remoteRow_id o t)

/-- One `INSERT ... SELECT`: the rows to insert are selected before any of them is. -/
def insertRemoteChunk (o : RemoteOptions) (db : Db) (chunk : List RemoteTarget) : Db :=
  { db with bans := (chunk.filter (importable db o)).foldl (insertRemote o) db.bans }

def createRemoteBans (db : Db) (o : RemoteOptions) (targets : List RemoteTarget) : Db :=
  (slices remoteInsertChunk targets).foldl (insertRemoteChunk o) db

/-! ## Reconciliation -/

/-- `blocklistOriginRef`. -/
def blocklistOriginRef (listId : Nat) : OriginRef := .blocklist listId

/-- An active ban created for a list. -/
def isListBan (listId : Nat) (b : BanRow) : Bool :=
  b.originRef == some (blocklistOriginRef listId) && b.banType == .remote && b.isActive

/-- A list entry that calls for a ban. -/
def isBannedEntry (listId : Nat) (e : BlockedIp) : Bool :=
  e.blocklistId == listId && e.enabled && e.status == .banned

/-- A ban of a list whose entry is gone, disabled or no longer `banned`. -/
def isStale (entries : Table BlockedIp.id) (listId : Nat) (b : BanRow) : Bool :=
  isListBan listId b &&
    !entries.rows.any fun e => isBannedEntry listId e && e.ip == b.target.networkSql

/-- The ids of the stale bans of a list. -/
def staleIds (db : Db) (listId : Nat) : List Nat :=
  (db.bans.rows.filter (isStale db.blockedIps listId)).map (·.id)

/-- The entries of a list without a ban: those that no active global row covers. -/
def candidates (db : Db) (listId : Nat) : List BlockedIp :=
  db.blockedIps.rows.filter fun e => isBannedEntry listId e &&
    !db.bans.rows.any fun b => b.isActive && b.scope == .global && b.target.networkSql.contains e.ip

/-- The check of an entry when a ban is made of it. -/
def entryCheck (env : SafetyEnv) (e : BlockedIp) : Except BanTargetError BanTarget :=
  checkBanTarget env (String.ofList e.ip.castText) true

def entryReason (list : Blocklist) (e : BlockedIp) : String :=
  match list.sourceType with
  | .oblitools =>
    let reason := e.reason.getD "shared ban"
    s!"obli.tools: {reason} ({e.reports} reports)"
  | .url => s!"Remote blocklist \"{list.name}\""

/-- The targets of the missing bans. -/
def missingTargets (env : SafetyEnv) (db : Db) (list : Blocklist) : List RemoteTarget :=
  (candidates db list.id).filterMap fun e =>
    match entryCheck env e with
    | .ok t => some ⟨t, some (entryReason list e)⟩
    | .error _ => none

def listOptions (list : Blocklist) : RemoteOptions where
  originRef := blocklistOriginRef list.id
  originTenantId := some (list.tenantId.getD masterTenantId)
  reason := s!"Remote blocklist \"{list.name}\""

/-- The stored enforce flag; a deleted list counts as off. -/
def storedEnforce (db : Db) (listId : Nat) : Bool := (db.blocklists.find listId).any (·.enforce)

/-- `reconcileListBans`. -/
def reconcileListBans (env : SafetyEnv) (now : Int) (list : Blocklist) (db : Db) : Db :=
  if storedEnforce db list.id then
    let db := (deactivateBans db now (staleIds db list.id) .remoteSync).2
    createRemoteBans db (listOptions list) (missingTargets env db list)
  else deactivateRemoteBans db now (blocklistOriginRef list.id)

/-! ## Lists and entries -/

/-- `scopeLists`: the Default tenant reaches every list, any other one the instance lists and its
own legacy rows. -/
def listVisible (tenantId : Option Nat) (l : Blocklist) : Bool :=
  (tenantId.any isMasterTenant) || l.tenantId == none || l.tenantId == some masterTenantId ||
    (tenantId.isSome && l.tenantId == tenantId)

/-- `getRow`. -/
def getRow (db : Db) (id : Nat) (tenantId : Option Nat) : Option Blocklist :=
  (db.blocklists.find id).filter (listVisible tenantId)

/-- The fields of a patch that the model keeps; `none` is a missing field. -/
structure ListPatch where
  name : Option String
  url : Option String
  apiKey : Option (Option String)
  enforce : Option Bool

/-- A list row after a patch. A new URL without a key drops the stored key. -/
def Blocklist.patched (p : ListPatch) (l : Blocklist) : Blocklist :=
  { l with
    name := p.name.getD l.name
    url := p.url.getD l.url
    apiKey := match p.apiKey with
      | some k => k
      | none => if p.url.getD l.url = l.url then l.apiKey else none
    enforce := p.enforce.getD l.enforce }

theorem Blocklist.patched_id (p : ListPatch) (l : Blocklist) : (l.patched p).id = l.id := rfl

/-- `create`; a new list enforces only when asked to. -/
def createList (db : Db) (name url : String) (sourceType : SourceType) (apiKey : Option String)
    (enforce : Option Bool) (tenantId : Option Nat) : Db :=
  { db with
    blocklists := db.blocklists.insert
      (fun id => ⟨id, name, sourceType, url, apiKey, enforce.getD false, tenantId⟩) fun _ => rfl }

/-- `update`: changing the enforce flag reconciles the list at once. -/
def updateList (env : SafetyEnv) (now : Int) (id : Nat) (tenantId : Option Nat) (p : ListPatch)
    (db : Db) : Db :=
  match getRow db id tenantId with
  | none => db
  | some current =>
    let db := { db with
      blocklists := db.blocklists.update (fun l => l.id == current.id) (Blocklist.patched p)
        (Blocklist.patched_id p) }
    let row := current.patched p
    if row.enforce != current.enforce then reconcileListBans env now row db else db

/-- `delete`: the bans of the list go with it, the entries cascade. -/
def deleteList (now : Int) (id : Nat) (tenantId : Option Nat) (db : Db) : Db :=
  match getRow db id tenantId with
  | none => db
  | some current =>
    let db := deactivateRemoteBans db now (blocklistOriginRef current.id)
    { db with
      blocklists := db.blocklists.delete fun l => l.id == current.id
      blockedIps := db.blockedIps.delete fun e => e.blocklistId == current.id }

/-- An entry after it was switched. -/
def BlockedIp.switched (enabled : Bool) (e : BlockedIp) : BlockedIp := { e with enabled := enabled }

theorem BlockedIp.switched_id (enabled : Bool) (e : BlockedIp) : (e.switched enabled).id = e.id := rfl

/-- The entries after a switch. -/
def switchEntry (entries : Table BlockedIp.id) (id : Nat) (enabled : Bool) : Table BlockedIp.id :=
  entries.update (fun e => e.id == id) (BlockedIp.switched enabled) (BlockedIp.switched_id enabled)

/-- The list of an entry that the caller may switch. -/
def switchableList (db : Db) (id : Nat) (tenantId : Option Nat) : Option Blocklist :=
  (db.blockedIps.find id).bind fun e => getRow db e.blocklistId tenantId

/-- `toggleIp`: applied at once on an enforcing list. -/
def toggleIp (env : SafetyEnv) (now : Int) (id : Nat) (enabled : Bool) (tenantId : Option Nat)
    (db : Db) : Db :=
  match switchableList db id tenantId with
  | none => db
  | some list =>
    let db := { db with blockedIps := switchEntry db.blockedIps id enabled }
    if list.enforce then reconcileListBans env now list db else db

/-! ## Sync -/

/-- `MAX_URL_ENTRIES`. -/
def maxUrlEntries : Nat := 500000

/-- The target of one line of a URL list: comments are skipped, only the first column counts. -/
def lineTarget (env : SafetyEnv) (line : List Char) : Option BanTarget :=
  match jsTrim line with
  | [] => none
  | c :: cs =>
    if c == '#' || c == ';' then none
    else
      let column := (c :: cs).takeWhile fun d => !(d == ',' || d == ';' || d == '\t' || d == ' ')
      (checkBanTarget env (String.ofList (jsTrim column)) true).toOption

/-- The distinct targets of the lines, at most `maxUrlEntries`. -/
def urlTargets (env : SafetyEnv) : List (List Char) → List BanTarget → List BanTarget
  | [], ips => ips
  | line :: lines, ips =>
    match lineTarget env line with
    | none => urlTargets env lines ips
    | some t =>
      if ips.length ≥ maxUrlEntries then ips
      else urlTargets env lines (if ips.any fun u => u.cidr == t.cidr then ips else ips ++ [t])

/-- The unique key of `remote_blocked_ips`. -/
def isEntryOf (listId : Nat) (n : Net) (e : BlockedIp) : Bool :=
  e.blocklistId == listId && e.ip == Inet.ofNet n

/-- What a write keeps of an entry: its id, list, address and switch. -/
structure SameEntry (e f : BlockedIp) : Prop where
  id : f.id = e.id
  blocklistId : f.blocklistId = e.blocklistId
  ip : f.ip = e.ip
  enabled : f.enabled = e.enabled

/-- One entry written by the sync of a list: inserted, or merged into the row of the same key. -/
structure EntryWrite (listId : Nat) where
  target : BanTarget
  /-- The row inserted. -/
  fresh : Nat → BlockedIp
  /-- The row merged into. -/
  merge : BlockedIp → BlockedIp
  fresh_id : ∀ id, (fresh id).id = id
  fresh_key : ∀ id, (fresh id).blocklistId = listId ∧ (fresh id).ip = Inet.ofNet target.net
  merge_same : ∀ e, SameEntry e (merge e)

theorem EntryWrite.merge_id {listId : Nat} (w : EntryWrite listId) (e : BlockedIp) :
    (w.merge e).id = e.id := (w.merge_same e).id

/-- `INSERT ... ON CONFLICT (blocklist_id, ip) DO UPDATE`. -/
def upsertEntry {listId : Nat} (entries : Table BlockedIp.id) (w : EntryWrite listId) :
    Table BlockedIp.id :=
  if entries.rows.any (isEntryOf listId w.target.net) then
    entries.update (isEntryOf listId w.target.net) w.merge w.merge_id
  else entries.insert w.fresh w.fresh_id

/-- The entry of a URL list; the columns `reports`, `enabled` and `status` take their defaults. -/
def urlWrite (now : Int) (listId : Nat) (t : BanTarget) : EntryWrite listId where
  target := t
  fresh id := ⟨id, listId, Inet.ofNet t.net, some "blocklist", 1, now, true, .banned⟩
  merge e := { e with lastSeen := now }
  fresh_id _ := rfl
  fresh_key _ := ⟨rfl, rfl⟩
  merge_same _ := ⟨rfl, rfl, rfl, rfl⟩

/-- One item of an obli.tools answer. -/
structure OblitoolsItem where
  rawIp : String
  status : Option EntryStatus
  reason : Option String
  lastSeen : Option Int
  reports : Option Nat

/-- The entry of an obli.tools item. -/
def oblitoolsWrite (now : Int) (listId : Nat) (item : OblitoolsItem) (t : BanTarget) :
    EntryWrite listId where
  target := t
  fresh id := ⟨id, listId, Inet.ofNet t.net,
    item.reason.map fun r => String.ofList (utf16Take 256 r.toList), item.reports.getD 1,
    item.lastSeen.getD now, true, item.status.getD .banned⟩
  merge e := { e with
    reason := (item.reason.map fun r => String.ofList (utf16Take 256 r.toList)).or e.reason
    lastSeen := max (item.lastSeen.getD now) e.lastSeen
    reports := max (item.reports.getD 1) e.reports
    status := item.status.getD .banned }
  fresh_id _ := rfl
  fresh_key _ := ⟨rfl, rfl⟩
  merge_same _ := ⟨rfl, rfl, rfl, rfl⟩

/-- The target of an obli.tools item; a banned network is refused. -/
def itemTarget (env : SafetyEnv) (item : OblitoolsItem) : Option BanTarget :=
  (checkBanTarget env item.rawIp true).toOption.filter fun t =>
    !(item.status.getD .banned == .banned && t.isNetwork)

/-- What a source answers. -/
inductive SyncBody
  | url (text : String)
  | oblitools (items : List OblitoolsItem)

/-- The writes of a sync to the entries of a list; none for a body of the wrong kind or an
obli.tools list without its key, whose sync does not reconcile either. -/
def syncWrites (env : SafetyEnv) (now : Int) (list : Blocklist) (body : SyncBody) :
    Option (List (EntryWrite list.id)) :=
  match list.sourceType, body with
  | .url, .url text =>
    some ((urlTargets env (text.toList.splitOn '\n') []).map (urlWrite now list.id))
  | .oblitools, .oblitools items =>
    if list.apiKey.isNone then none
    else some (items.filterMap fun item =>
      (itemTarget env item).map (oblitoolsWrite now list.id item))
  | _, _ => none

/-- The entries after a sync: a URL list drops the ones its source no longer serves, unless the
answer is empty. -/
def syncEntries (now : Int) (list : Blocklist) (writes : List (EntryWrite list.id))
    (entries : Table BlockedIp.id) : Table BlockedIp.id :=
  let written := writes.foldl upsertEntry entries
  match list.sourceType, writes with
  | .url, _ :: _ => written.delete fun e => e.blocklistId == list.id && decide (e.lastSeen < now)
  | _, _ => written

/-- `syncOne`. -/
def syncOne (env : SafetyEnv) (now : Int) (id : Nat) (body : SyncBody) (db : Db) : Db :=
  match db.blocklists.find id with
  | none => db
  | some list =>
    match syncWrites env now list body with
    | none => db
    | some writes => reconcileListBans env now list
        { db with blockedIps := syncEntries now list writes db.blockedIps }

end Obliguard.Server

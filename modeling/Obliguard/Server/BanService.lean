import Obliguard.Server.BanTable

/-!
# The operator's writes to bans

`create`, `promoteToGlobal`, `lift`, `bulkLift`, `excludeForTenant` and `removeExclusion` of
`server/src/services/ban.service.ts`, with the visibility predicates of `banVisibility.ts`. The
authority of every write follows the operating tenant of the caller.

An operation returns its result, or the error it answers with, together with the tables it leaves:
a refused request may still have deactivated expired rows. The fields of a request are given as the
coercions of the service read them. Socket events and MikroTik pushes are left out.
-/

namespace Obliguard.Server

open Bans IpValidation Text

inductive ErrorCode
  | tenantMembershipRequired
  | banIpRequired
  | banCidrPrefixInvalid
  | banCidrPrefixTwice
  | banTargetInvalid
  | banTargetCidrNotAllowed
  | banTargetTooWide
  | banTargetReserved
  | banScopeInvalid
  | scopeIdRequired
  | scopeIdInvalid
  | agentNotFound
  | groupNotFound
  | banGlobalDefaultTenantOnly
  | banDefaultTenantScope
  | banExpiresAtInvalid
  | banExpiresAtPast
  | ipWhitelisted
  | banLiftedForTenant
  | ipAlreadyBannedGlobally
  | ipAlreadyBanned
  | banPromoteDefaultTenantOnly
  | banNotFound
  | banInactive
  | banAlreadyGlobal
  | banForeignTenant
  | banAlreadyLiftedForTenant
  | banExcludeGlobalOnly
  | banExclusionNotFound
  | whitelistIpInvalid
  | whitelistDuplicate
  | whitelistEntryNotFound
  | whitelistGlobalReadOnly
  | foreignTenantReadOnly
deriving DecidableEq, Repr

/-- `codedError`. -/
structure ApiError where
  status : Nat
  code : ErrorCode
  message : String
  params : List (String × Nat) := []
deriving DecidableEq, Repr

/-- Refuse unless the condition holds. -/
def require (condition : Bool) (e : ApiError) : Except ApiError Unit :=
  if condition then .ok () else .error e

theorem require_eq_ok {condition : Bool} {e : ApiError} {u : Unit} :
    require condition e = .ok u ↔ condition = true := by
  cases condition with
  | false => simp [require]
  | true => simp [require]

theorem bind_eq_ok {α β : Type} {x : Except ApiError α} {f : α → Except ApiError β} {b : β} :
    x >>= f = .ok b ↔ ∃ a, x = .ok a ∧ f a = .ok b := by
  cases x with
  | error e => simp [bind, Except.bind]
  | ok a => simp [bind, Except.bind]

/-- The caller of an operation, on the tenant it operates. -/
structure Caller where
  userId : Nat
  tenantId : Nat
  isAdmin : Bool
  /-- `canUseTenant(userId, 'user', tenantId)`. -/
  canUseTenant : Bool
  /-- The agents the caller's teams may write; `none` is no restriction. -/
  writableAgentIds : Option (List Nat)

def assertOperatingMembership (c : Caller) : Except ApiError Unit :=
  if c.isAdmin then .ok ()
  else if c.userId = 0 || !c.canUseTenant then
    .error ⟨403, .tenantMembershipRequired, "You are not a member of this tenant", []⟩
  else .ok ()

/-- `canSeeBan`: the Default tenant sees every ban, any other one the global bans and its own. -/
def canSeeBan (b : BanRow) (tenantId : Nat) : Bool :=
  isMasterTenant tenantId || b.scope == .global || b.tenantId == some tenantId

/-- `whereTeamScopeAllows`: group and agent rows only through the agents of the team. -/
def teamScopeAllows (db : Db) (scope : Scope) (scopeId : Option Nat) (agentIds : List Nat) : Bool :=
  match scope with
  | .global | .tenant => true
  | .agent => agentIds.any fun a => scopeId == some a
  | .group => db.closure.any fun gc => scopeId == some gc.ancestorId &&
      db.devices.rows.any fun d => d.groupId == some gc.descendantId && agentIds.contains d.id

/-- `teamWritableBanIds` for one row. -/
def teamWritable (db : Db) (c : Caller) (b : BanRow) : Bool :=
  match c.writableAgentIds with
  | none => true
  | some allowed => teamScopeAllows db b.scope b.scopeId allowed

def banInactiveError : ApiError := ⟨409, .banInactive, "Ban is no longer active", []⟩

def banNotFoundError : ApiError := ⟨404, .banNotFound, "Ban not found", []⟩

/-! ## Creation -/

/-- `CreateBanRequest`. A missing or empty field is `none`; `some none` is a value of the wrong
kind. -/
structure CreateBanRequest where
  ip : Option String
  cidrPrefix : Option (Option Int)
  scope : Option (Option Scope)
  /-- `Number(scopeId)`, `none` when this is no integer. -/
  scopeId : Option Int
  expiresAt : Option (Option Int)
  reason : Option String

/-- `banTargetError`. -/
def banTargetError (env : SafetyEnv) (e : BanTargetError) (raw start : String) : ApiError :=
  let message := start ++ e.message
  match e.code with
  | .tooBroad =>
    match parseIpOrCidr raw with
    | none => ⟨400, .banTargetTooWide, message, []⟩
    | some p => ⟨400, .banTargetTooWide, message,
        [("prefix", env.banPrefixFloor p.family), ("family", match p.family with | .v4 => 4 | .v6 => 6)]⟩
  | .cidrNotAllowed => ⟨400, .banTargetCidrNotAllowed, message, []⟩
  | .reserved | .protectedAddress => ⟨400, .banTargetReserved, message, []⟩
  | .invalid => ⟨400, .banTargetInvalid, message, []⟩

/-- The target text of a request, the prefix length being given in `ip` or in `cidrPrefix`. -/
def rawTarget (req : CreateBanRequest) : Except ApiError String :=
  match req.ip with
  | none => .error ⟨400, .banIpRequired, "ip is required", []⟩
  | some ip =>
    match req.cidrPrefix with
    | none => .ok ip
    | some none => .error ⟨400, .banCidrPrefixInvalid, "Invalid CIDR prefix", []⟩
    | some (some n) =>
      if '/' ∈ ip.toList then
        .error ⟨400, .banCidrPrefixTwice, "Give the prefix either in ip or in cidrPrefix, not both", []⟩
      else .ok (String.ofList (jsTrim ip.toList ++ '/' :: (toString n).toList))

/-- The target of a group or agent scope must belong to the operating tenant. -/
def ownedScope (db : Db) (tenantId : Nat) (scope : Scope) (scopeId : Option Int) :
    Except ApiError (Scope × Option Nat × Option Nat) :=
  let sid := (scopeId.getD 0).toNat
  if sid = 0 then .error ⟨400, .scopeIdRequired, "scopeId is required for group/agent scope", []⟩
  else if scope = .agent then
    if (db.devices.find sid).any fun d => d.tenantId == tenantId then .ok (.agent, some sid, some tenantId)
    else .error ⟨404, .agentNotFound, "Agent not found", []⟩
  else if (db.groups.find sid).any fun g => g.tenantId == tenantId then
    .ok (.group, some sid, some tenantId)
  else .error ⟨404, .groupNotFound, "Group not found", []⟩

/-- The scope of a new ban with its scope id and its owning tenant. It follows the operating tenant;
a requested scope that contradicts this is refused, never widened. -/
def banScope (db : Db) (tenantId : Nat) (req : CreateBanRequest) :
    Except ApiError (Scope × Option Nat × Option Nat) :=
  let derived := if isMasterTenant tenantId then (Scope.global, none, none)
    else (Scope.tenant, none, some tenantId)
  match req.scope with
  | none => .ok derived
  | some none => .error ⟨400, .banScopeInvalid, "Invalid scope", []⟩
  | some (some .group) => ownedScope db tenantId .group req.scopeId
  | some (some .agent) => ownedScope db tenantId .agent req.scopeId
  | some (some .global) =>
    if isMasterTenant tenantId then .ok derived
    else .error ⟨403, .banGlobalDefaultTenantOnly,
      "Global bans can only be created from the Default tenant", []⟩
  | some (some .tenant) =>
    if isMasterTenant tenantId then .error ⟨400, .banDefaultTenantScope,
      "Bans created from the Default tenant are global: omit the scope, or use a group or agent scope", []⟩
    else .ok derived

def banExpiry (now : Int) (req : CreateBanRequest) : Except ApiError (Option Int) :=
  match req.expiresAt with
  | none => .ok none
  | some none => .error ⟨400, .banExpiresAtInvalid, "Invalid expiresAt", []⟩
  | some (some d) =>
    if d ≤ now then .error ⟨400, .banExpiresAtPast, "expiresAt must be in the future", []⟩
    else .ok (some d)

def banReason (req : CreateBanRequest) : Option String :=
  req.reason.bind fun r =>
    if jsTrim r.toList = [] then none else some (String.ofList (utf16Take 500 (jsTrim r.toList)))

/-- A request that passed the checks before the first write. -/
structure NewBan where
  target : BanTarget
  scope : Scope
  scopeId : Option Nat
  tenantId : Option Nat
  expiresAt : Option Int
  reason : Option String

/-- `create` may be told that the membership was checked before. -/
def createMembership (c : Caller) (membershipChecked : Bool) : Except ApiError Unit :=
  if membershipChecked then .ok () else assertOperatingMembership c

/-- The checks of `create`: membership, target, scope, safety, expiry. -/
def createChecks (env : SafetyEnv) (c : Caller) (now : Int) (membershipChecked : Bool)
    (req : CreateBanRequest) (db : Db) : Except ApiError NewBan := do
  let () ← createMembership c membershipChecked
  let raw ← rawTarget req
  let t ← (parseBanTarget env raw true).mapError fun e => banTargetError env e raw ""
  let (scope, scopeId, tenantId) ← banScope db c.tenantId req
  let () ← require (findBanSafetyConflict env t.toParsedCidr (scope == .global) tenantId).isNone
    ⟨400, .banTargetReserved, reservedOrProtectedMessage, []⟩
  let expiresAt ← banExpiry now req
  return ⟨t, scope, scopeId, tenantId, expiresAt, banReason req⟩

/-- `whitelistContextOf`: the entries of the ban's own scope. -/
def whitelistContextOf (scope : Scope) (scopeId tenantId : Option Nat) : WhitelistMatchContext :=
  match scope, tenantId with
  | .global, _ | _, none => {}
  | .group, some t => ⟨some t, scopeId.toList, none⟩
  | .agent, some t => ⟨some t, [], scopeId⟩
  | .tenant, some t => ⟨some t, [], none⟩

/-- The duplicate of a new ban: an active global row, else one of its own scope. -/
def findDuplicate (db : Db) (now : Int) (nb : NewBan) : Option BanRow :=
  let same := db.bans.rows.filter fun b => sameTarget nb.target.net b && b.isActive && b.unexpired now
  let own := same.filter fun b => nb.scope != .global && b.scope == nb.scope &&
    b.scopeId.getD 0 == nb.scopeId.getD 0 && b.tenantId == nb.tenantId
  (same.find? fun b => b.scope == .global).or own.head?

/-- The error of a duplicate. -/
def duplicateError (db : Db) (tenantId : Nat) (nb : NewBan) (dup : BanRow) : ApiError :=
  if dup.scope = .global ∧ nb.scope ≠ .global then
    if db.exclusions.any fun ex => ex.banId == dup.id && ex.tenantId == tenantId then
      ⟨409, .banLiftedForTenant,
        "This IP is banned globally but lifted on your tenant: use Re-enable instead", []⟩
    else ⟨409, .ipAlreadyBannedGlobally, "This IP is already banned globally", []⟩
  else ⟨409, .ipAlreadyBanned, "This IP is already banned", []⟩

/-- The row of a new manual ban. -/
def manualRow (c : Caller) (nb : NewBan) (id : Nat) : BanRow where
  id := id
  target := Stored.ofNet nb.target.net
  reason := nb.reason
  banType := .manual
  scope := nb.scope
  scopeId := nb.scopeId
  tenantId := nb.tenantId
  originTenantId := some c.tenantId
  originApp := none
  originRef := none
  bannedByUserId := if c.userId > 0 then some c.userId else none
  expiresAt := nb.expiresAt
  isActive := true
  liftedAt := none
  liftReason := none

theorem manualRow_id (c : Caller) (nb : NewBan) (id : Nat) : (manualRow c nb id).id = id := rfl

/-- The transaction of `create`: whitelist check, duplicate check and insert. -/
def insertManual (c : Caller) (now : Int) (nb : NewBan) (db : Db) : Except ApiError BanRow × Db :=
  if isWhitelistedOverlapping db nb.target.net (whitelistContextOf nb.scope nb.scopeId nb.tenantId) then
    (.error ⟨409, .ipWhitelisted, "This IP is whitelisted", []⟩, db)
  else match findDuplicate db now nb with
  | some dup => (.error (duplicateError db c.tenantId nb dup), db)
  | none =>
    let row := manualRow c nb db.bans.seq
    if uniqueConflict db.bans row then
      (.error ⟨409, .ipAlreadyBanned, "This IP is already banned", []⟩, db)
    else (.ok row, { db with bans := db.bans.insert (manualRow c nb) (manualRow_id c nb) })

/-- `create`. An expired row still flagged active would hold the unique key, so it is deactivated
before the transaction. -/
def createBan (env : SafetyEnv) (c : Caller) (now : Int) (membershipChecked : Bool)
    (req : CreateBanRequest) (db : Db) : Except ApiError BanRow × Db :=
  match createChecks env c now membershipChecked req db with
  | .error e => (.error e, db)
  | .ok nb => insertManual c now nb (expireStale db now nb.target.net)

/-! ## Promotion -/

/-- The checks of `promoteToGlobal`; the address is read back from the row. -/
def promoteChecks (env : SafetyEnv) (c : Caller) (now : Int) (banId : Nat) (db : Db) :
    Except ApiError BanTarget := do
  let () ← require (isMasterTenant c.tenantId) ⟨403, .banPromoteDefaultTenantOnly,
    "Promote to global is only available from the Default tenant", []⟩
  let () ← assertOperatingMembership c
  let ban ← (db.bans.find banId).elim (.error banNotFoundError) .ok
  let () ← require (ban.isActive && !ban.expired now) banInactiveError
  let () ← require (ban.scope != .global) ⟨409, .banAlreadyGlobal, "Ban is already global", []⟩
  let raw := banTargetRawFromRow ban.target.ip.text ban.target.cidrPrefix
  let t ← (parseBanTarget env raw true).mapError fun e =>
    banTargetError env e raw "Cannot promote this ban: "
  let () ← require (findBanSafetyConflict env t.toParsedCidr true none).isNone
    ⟨400, .banTargetReserved, reservedOrProtectedMessage, []⟩
  return t

/-- A row after its promotion. -/
def BanRow.promoted (n : Net) (b : BanRow) : BanRow :=
  { b with scope := .global, scopeId := none, tenantId := none, target := Stored.ofNet n }

theorem BanRow.promoted_id (n : Net) (b : BanRow) : (b.promoted n).id = b.id := rfl

/-- The transaction of `promoteToGlobal`. -/
def promoteRow (now : Int) (banId : Nat) (n : Net) (db : Db) : Except ApiError BanRow × Db :=
  if isWhitelistedOverlapping db n {} then
    (.error ⟨409, .ipWhitelisted, "This IP is whitelisted", []⟩, db)
  else if db.bans.rows.any fun b => sameTarget n b && b.isActive && b.unexpired now &&
      b.scope == .global then
    (.error ⟨409, .ipAlreadyBannedGlobally, "This IP is already banned globally", []⟩, db)
  else match db.bans.rows.find? fun b => b.id == banId && b.isActive && b.scope != .global with
  | none => (.error banInactiveError, db)
  | some ban =>
    if uniqueConflict db.bans (ban.promoted n) then
      (.error ⟨409, .ipAlreadyBannedGlobally, "This IP is already banned globally", []⟩, db)
    else (.ok (ban.promoted n), { db with
      bans := db.bans.update (fun b => b.id == banId && b.isActive && b.scope != .global)
        (BanRow.promoted n) (BanRow.promoted_id n) })

def promoteToGlobal (env : SafetyEnv) (c : Caller) (now : Int) (banId : Nat) (db : Db) :
    Except ApiError BanRow × Db :=
  match promoteChecks env c now banId db with
  | .error e => (.error e, db)
  | .ok t => promoteRow now banId t.net (expireStale db now t.net)

/-! ## Lifts and exclusions -/

inductive LiftPlan
  | deactivate
  | exclude
  | refuse (e : ApiError)

/-- `planLift`, the single Lift rule: the Default tenant deactivates, any other tenant excludes a
global ban, deactivates its own and is refused another tenant's. -/
def planLift (b : BanRow) (tenantId : Nat) : LiftPlan :=
  if isMasterTenant tenantId then if b.isActive then .deactivate else .refuse banInactiveError
  else if !canSeeBan b tenantId then .refuse banNotFoundError
  else if b.scope = .global then if b.isActive then .exclude else .refuse banInactiveError
  else if b.tenantId ≠ some tenantId then
    .refuse ⟨403, .banForeignTenant, "This ban belongs to another tenant", []⟩
  else if b.isActive then .deactivate else .refuse banInactiveError

/-- `INSERT ... ON CONFLICT (ban_id, tenant_id) DO NOTHING`. -/
def addExclusion (db : Db) (ex : Exclusion) : Db :=
  if db.exclusions.any fun e => e.banId == ex.banId && e.tenantId == ex.tenantId then db
  else { db with exclusions := db.exclusions ++ [ex] }

def lift (c : Caller) (now : Int) (banId : Nat) (db : Db) : Except ApiError Unit × Db :=
  match assertOperatingMembership c with
  | .error e => (.error e, db)
  | .ok () =>
    match db.bans.find banId with
    | none => (.error banNotFoundError, db)
    | some ban =>
      if !teamWritable db c ban then (.error banNotFoundError, db)
      else match planLift ban c.tenantId with
      | .refuse e => (.error e, db)
      | .exclude => (.ok (), addExclusion db ⟨banId, c.tenantId, some c.userId⟩)
      | .deactivate =>
        let done := deactivateBans db now [banId] .lift
        (if done.1 = [] then .error banInactiveError else .ok (), done.2)

/-- `BULK_LIFT_DETAIL_MAX`. -/
def bulkLiftDetailMax : Nat := 50

structure BulkLiftResult where
  lifted : Nat
  excluded : Nat
  skipped : Nat
  refused : Nat
  errors : List (Nat × ApiError)

/-- A refusal: counted, and kept among the first ones. -/
def BulkLiftResult.refuse (r : BulkLiftResult) (id : Nat) (e : ApiError) : BulkLiftResult :=
  { r with
    skipped := if e.status = 409 then r.skipped + 1 else r.skipped
    refused := if e.status = 409 then r.refused else r.refused + 1
    errors := if r.errors.length < bulkLiftDetailMax then r.errors ++ [(id, e)] else r.errors }

/-- The rows of a bulk Lift by what `planLift` says of them. -/
structure LiftBatch where
  toDeactivate : List Nat
  toExclude : List BanRow
  result : BulkLiftResult

/-- The row of an id that the caller may lift, if any. -/
def writableBan (db : Db) (c : Caller) (id : Nat) : Option BanRow :=
  (db.bans.find id).filter (teamWritable db c)

def planBatch (db : Db) (c : Caller) (acc : LiftBatch) (id : Nat) : LiftBatch :=
  match writableBan db c id with
  | none => { acc with result := acc.result.refuse id banNotFoundError }
  | some ban =>
    match planLift ban c.tenantId with
    | .refuse e => { acc with result := acc.result.refuse id e }
    | .exclude => { acc with toExclude := acc.toExclude ++ [ban] }
    | .deactivate => { acc with toDeactivate := acc.toDeactivate ++ [id] }

/-- The exclusions of a bulk Lift; a row already excluded is a refusal. -/
def excludeBatch (c : Caller) (acc : BulkLiftResult × Db) (ban : BanRow) : BulkLiftResult × Db :=
  if acc.2.exclusions.any fun e => e.banId == ban.id && e.tenantId == c.tenantId then
    (acc.1.refuse ban.id
      ⟨409, .banAlreadyLiftedForTenant, "Already lifted on this tenant", []⟩, acc.2)
  else ({ acc.1 with excluded := acc.1.excluded + 1 },
    addExclusion acc.2 ⟨ban.id, c.tenantId, if c.userId > 0 then some c.userId else none⟩)

def bulkLift (c : Caller) (now : Int) (ids : List Nat) (db : Db) :
    Except ApiError BulkLiftResult × Db :=
  match assertOperatingMembership c with
  | .error e => (.error e, db)
  | .ok () =>
    let batch := (distinct ids).foldl (planBatch db c) ⟨[], [], ⟨0, 0, 0, 0, []⟩⟩
    let excluded := batch.toExclude.foldl (excludeBatch c) (batch.result, db)
    let done := deactivateBans excluded.2 now batch.toDeactivate .lift
    let result := { excluded.1 with lifted := done.1.length }
    (.ok (batch.toDeactivate.foldl (fun r id =>
      if done.1.any fun row => row.id == id then r else r.refuse id banInactiveError) result), done.2)

def excludeForTenant (c : Caller) (banId : Nat) (db : Db) : Except ApiError Unit × Db :=
  match assertOperatingMembership c with
  | .error e => (.error e, db)
  | .ok () =>
    match db.bans.find banId with
    | none => (.error banNotFoundError, db)
    | some ban =>
      if !canSeeBan ban c.tenantId then (.error banNotFoundError, db)
      else if ban.scope ≠ .global then
        (.error ⟨400, .banExcludeGlobalOnly, "Only global bans can be excluded per-tenant", []⟩, db)
      else if !ban.isActive then (.error banInactiveError, db)
      else (.ok (), addExclusion db ⟨banId, c.tenantId, some c.userId⟩)

def removeExclusion (tenantId : Nat) (banId : Nat) (db : Db) : Except ApiError Unit × Db :=
  let hit (ex : Exclusion) : Bool := ex.banId == banId && ex.tenantId == tenantId
  if db.exclusions.any hit then (.ok (), { db with exclusions := db.exclusions.filter fun ex => !hit ex })
  else (.error ⟨404, .banExclusionNotFound, "No exclusion found for this ban and tenant", []⟩, db)

end Obliguard.Server

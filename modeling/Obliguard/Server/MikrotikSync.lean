import Obliguard.Server.BanService

/-!
# Bans on MikroTik routers

`mikrotikBanSync.service.ts`: the push of one ban to the routers of its audience, and the
reconciliation of a router with `computeBanDelta`. `MikrotikOp` is an operation of the ban service
together with the pushes that it starts; they run after it, one after the other.

Every entry of an address list is one that Obliguard added, and every router can be reached. What a
router accepts is a parameter: `/ip/firewall/address-list/add` refuses a target of IPv6.
-/

namespace Obliguard.Server

open Bans IpValidation

/-- The tables, the ids of the approved MikroTik devices, and the address list of each; `takes` says
which texts a router lets into its list. -/
structure MikrotikState where
  db : Db
  approved : List Nat
  takes : Nat → String → Bool
  held : Nat → List String
  held_takes : ∀ id, ∀ text ∈ held id, takes id text = true

/-- `MikrotikBanAudience`: the routers of a tenant, or of all. -/
structure MikrotikBanAudience where
  tenantId : Option Nat
  banId : Option Nat
deriving DecidableEq

inductive MikrotikAction
  | ban | unban
deriving DecidableEq

inductive MikrotikPush
  /-- `pushBanToAll`. -/
  | push (target : String) (action : MikrotikAction) (audience : MikrotikBanAudience)
  /-- `reconcileAll`. -/
  | reconcile
deriving DecidableEq

/-- `LIFT_MIKROTIK_MAX_ROWS`. -/
def liftMikrotikMaxRows : Nat := 50

/-! ## Rows of a target -/

/-- `whereBanTarget`: the rows of the target that a text names. -/
def whereBanTarget (target : String) (b : BanRow) : Bool := (netOfText target).any (sameTarget · b)

/-- `excludedTenants`: those that excluded a ban, or the active global bans of the target. -/
def excludedTenants (db : Db) (target : String) (banId : Option Nat) : List Nat :=
  match banId with
  | some id => distinct ((db.exclusions.filter (·.banId == id)).map (·.tenantId))
  | none => distinct ((db.exclusions.filter fun ex => (db.bans.find ex.banId).any fun b =>
      b.scope == .global && b.isActive && whereBanTarget target b).map (·.tenantId))

/-- `tenantsStillWanting`: those whose routers must still hold the target. -/
def tenantsStillWanting (db : Db) (now : Int) (target : String) (tenantIds : List Nat) : List Nat :=
  let bans := db.bans.rows.filter fun b => b.isActive && b.unexpired now &&
    (b.scope == .global || tenantIds.any (b.tenantId == some ·)) && whereBanTarget target b
  let safe := bans.filter fun b => !db.unsafeIds.contains b.id
  tenantIds.filter fun t => safe.any fun b =>
    if b.scope = .global then !isExcluded db t b else b.tenantId == some t

/-- `deliveredBanTarget`; the stored text of a row that cannot be read. -/
def deliveredBanTarget (b : BanRow) : String :=
  (deliveredText true b).getD (String.ofList b.target.ip.text)

/-- `mikrotikAudienceOf`. -/
def mikrotikAudienceOf (b : BanRow) : MikrotikBanAudience :=
  ⟨if b.scope = .global then none else b.tenantId, none⟩

/-! ## Pushes -/

/-- `getApprovedMikroTikDevices`. -/
def MikrotikState.devices (s : MikrotikState) (tenantId : Option Nat) : List Device :=
  s.db.devices.rows.filter fun d => s.approved.contains d.id && tenantId.all (d.tenantId == ·)

/-- `banIP` and `unbanIP`: an entry that is there already is kept, and an `add` that the router refuses
changes nothing. -/
def pushToDevice (takes : String → Bool) (action : MikrotikAction) (target : String)
    (held : List String) : List String :=
  match action with
  | .ban => if target ∈ held ∨ takes target = false then held else held ++ [target]
  | .unban => held.filter (· ≠ target)

theorem takes_of_mem_pushToDevice {takes : String → Bool} {action : MikrotikAction} {target : String}
    {held : List String} (hheld : ∀ text ∈ held, takes text = true) :
    ∀ text ∈ pushToDevice takes action target held, takes text = true := by
  intro text htext
  cases action with
  | ban =>
    rw [pushToDevice] at htext
    split at htext
    · exact hheld text htext
    · rename_i hnew
      rcases List.mem_append.mp htext with hold | hadded
      · exact hheld text hold
      · rw [List.mem_singleton.mp hadded]
        exact eq_true_of_ne_false fun hrefused => hnew (.inr hrefused)
  | unban => exact hheld text (List.mem_of_mem_filter htext)

/-- The routers that `pushBanToAll` reaches. -/
def MikrotikState.reached (s : MikrotikState) (now : Int) (target : String)
    (action : MikrotikAction) (audience : MikrotikBanAudience) : List Device :=
  let devices := s.devices audience.tenantId
  match action with
  | .ban =>
    if audience.tenantId = none then
      devices.filter fun d => !(excludedTenants s.db target audience.banId).contains d.tenantId
    else devices
  | .unban =>
    let tenants := distinct (devices.map (·.tenantId))
    devices.filter fun d => !(tenantsStillWanting s.db now target tenants).contains d.tenantId

def pushBanToAll (s : MikrotikState) (now : Int) (target : String) (action : MikrotikAction)
    (audience : MikrotikBanAudience) : MikrotikState :=
  { s with
    held := fun id => if id ∈ (s.reached now target action audience).map (·.id)
      then pushToDevice (s.takes id) action target (s.held id) else s.held id
    held_takes := by
      intro id
      split
      · exact takes_of_mem_pushToDevice (s.held_takes id)
      · exact s.held_takes id }

/-- The groups that `fullSync` reads for a router. -/
def routerGroupIds (db : Db) (d : Device) : List Nat :=
  match d.groupId with
  | none => []
  | some g => (db.closure.filter fun c => c.descendantId == g).map (·.ancestorId)

/-- What `fullSync` finds to change. -/
def syncDelta (db : Db) (now : Int) (d : Device) (held : List String) : BanDelta :=
  computeBanDelta db now d.id (routerGroupIds db d) d.tenantId (distinct held) (some true)

/-- `fullSync`: the first `add` that the router refuses ends it, before anything is removed. -/
def fullSync (takes : String → Bool) (db : Db) (now : Int) (d : Device) (held : List String) :
    List String :=
  let delta := syncDelta db now d held
  let added := held ++ delta.add.takeWhile takes
  if delta.add.all takes then added.filter fun text => !delta.remove.contains text else added

theorem takes_of_mem_fullSync {takes : String → Bool} {db : Db} {now : Int} {d : Device}
    {held : List String} (hheld : ∀ text ∈ held, takes text = true) :
    ∀ text ∈ fullSync takes db now d held, takes text = true := by
  intro text htext
  have hadded : text ∈ held ++ (syncDelta db now d held).add.takeWhile takes := by
    rw [fullSync] at htext
    split at htext
    · exact List.mem_of_mem_filter htext
    · exact htext
  rcases List.mem_append.mp hadded with hold | hnew
  · exact hheld text hold
  · exact List.all_eq_true.mp List.all_takeWhile text hnew

/-- `reconcileAll`. -/
def reconcileAll (s : MikrotikState) (now : Int) : MikrotikState :=
  { s with
    held := fun id => match (s.devices none).find? (·.id == id) with
      | some d => fullSync (s.takes id) s.db now d (s.held id)
      | none => s.held id
    held_takes := by
      intro id
      split
      · exact takes_of_mem_fullSync (s.held_takes id)
      · exact s.held_takes id }

def MikrotikPush.run (now : Int) (s : MikrotikState) : MikrotikPush → MikrotikState
  | .push target action audience => pushBanToAll s now target action audience
  | .reconcile => reconcileAll s now

/-! ## Operations with their pushes -/

/-- The pushes of `deactivateBans`, for the rows that it deactivated. -/
def deactivatePushes (rows : List BanRow) : List MikrotikPush :=
  if rows.length ≤ liftMikrotikMaxRows then
    rows.map fun b => .push (deliveredBanTarget b) .unban (mikrotikAudienceOf b)
  else [.reconcile]

/-- The push of a row that `create` or `promoteToGlobal` wrote. -/
def writtenPushes (result : Except ApiError BanRow) : List MikrotikPush :=
  match result with
  | .ok row => [.push (deliveredBanTarget row) .ban (mikrotikAudienceOf row)]
  | .error _ => []

/-- The rows that `expireStale` deactivates, as it returns them. -/
def staleRows (db : Db) (now : Int) (n : Net) : List BanRow :=
  (deactivateBans db now ((db.bans.rows.filter fun b => sameTarget n b && b.isActive &&
    b.expired now).map (·.id)) .expiry).1

inductive MikrotikOp
  | create (env : SafetyEnv) (c : Caller) (membershipChecked : Bool) (req : CreateBanRequest)
  | lift (c : Caller) (banId : Nat)
  | excludeForTenant (c : Caller) (banId : Nat)
  | removeExclusion (tenantId banId : Nat)
  | promoteToGlobal (env : SafetyEnv) (c : Caller) (banId : Nat)

/-- The tables after the operation. -/
def MikrotikOp.run (now : Int) (db : Db) : MikrotikOp → Db
  | .create env c checked req => (createBan env c now checked req db).2
  | .lift c banId => (Server.lift c now banId db).2
  | .excludeForTenant c banId => (Server.excludeForTenant c banId db).2
  | .removeExclusion tenantId banId => (Server.removeExclusion tenantId banId db).2
  | .promoteToGlobal env c banId => (Server.promoteToGlobal env c now banId db).2

def createPushes (env : SafetyEnv) (c : Caller) (now : Int) (checked : Bool) (req : CreateBanRequest)
    (db : Db) : List MikrotikPush :=
  match createChecks env c now checked req db with
  | .error _ => []
  | .ok nb => deactivatePushes (staleRows db now nb.target.net) ++
      writtenPushes (createBan env c now checked req db).1

def promotePushes (env : SafetyEnv) (c : Caller) (now : Int) (banId : Nat) (db : Db) :
    List MikrotikPush :=
  match promoteChecks env c now banId db with
  | .error _ => []
  | .ok t => deactivatePushes (staleRows db now t.net) ++
      writtenPushes (promoteToGlobal env c now banId db).1

def liftPushes (c : Caller) (now : Int) (banId : Nat) (db : Db) : List MikrotikPush :=
  match assertOperatingMembership c, writableBan db c banId with
  | .ok (), some ban =>
    match planLift ban c.tenantId with
    | .refuse _ => []
    | .exclude => [.push (deliveredBanTarget ban) .unban ⟨some c.tenantId, none⟩]
    | .deactivate => deactivatePushes (deactivateBans db now [banId] .lift).1
  | _, _ => []

def excludePushes (c : Caller) (banId : Nat) (db : Db) : List MikrotikPush :=
  match excludeForTenant c banId db, db.bans.find banId with
  | (.ok (), _), some ban => [.push (deliveredBanTarget ban) .unban ⟨some c.tenantId, none⟩]
  | _, _ => []

/-- The ban is enforced again on the tenant, if it is still active. -/
def removeExclusionPushes (tenantId banId : Nat) (db : Db) : List MikrotikPush :=
  match removeExclusion tenantId banId db, db.bans.find banId with
  | (.ok (), _), some ban =>
    if ban.isActive then [.push (deliveredBanTarget ban) .ban ⟨some tenantId, none⟩] else []
  | _, _ => []

/-- The pushes that the operation starts. -/
def MikrotikOp.pushes (now : Int) (db : Db) : MikrotikOp → List MikrotikPush
  | .create env c checked req => createPushes env c now checked req db
  | .lift c banId => liftPushes c now banId db
  | .excludeForTenant c banId => excludePushes c banId db
  | .removeExclusion tenantId banId => removeExclusionPushes tenantId banId db
  | .promoteToGlobal env c banId => promotePushes env c now banId db

/-- The operation, followed by its pushes. -/
def MikrotikState.after (s : MikrotikState) (now : Int) (op : MikrotikOp) : MikrotikState :=
  (op.pushes now s.db).foldl (MikrotikPush.run now) { s with db := op.run now s.db }

/-- Every approved router holds exactly what `computeBanDelta` wants for it. -/
def MikrotikState.Agrees (s : MikrotikState) (now : Int) : Prop :=
  ∀ d ∈ s.devices none, ∀ text, text ∈ s.held d.id ↔
    text ∈ wanted s.db now d.id (routerGroupIds s.db d) d.tenantId true

end Obliguard.Server

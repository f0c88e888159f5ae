import Obliguard.Lib.Table
import Obliguard.Server.BanTarget

/-!
# The database

The tables of the server that bans, exclusions, the whitelist, remote blocklists and the BanEngine
read and write, with the columns those functions use. Times are milliseconds. An instant of a row
that PostgreSQL sets with `now()` is the time of the statement.
-/

namespace Obliguard.Server

open Bans

/-- `BAN_SCOPES`, also the scopes of the whitelist. -/
inductive Scope
  | global
  | tenant
  | group
  | agent
deriving DecidableEq, Repr

/-- `ip_bans.ban_type`. -/
inductive BanType
  | auto
  | manual
  | external
  | remote
deriving DecidableEq, Repr

/-- `BanLiftReason`: why a ban was deactivated. -/
inductive LiftReason
  | lift
  | wipe
  | expiry
  | externalWithdraw
  | remoteSync
deriving DecidableEq, Repr

/-- `ip_bans.origin_ref`: `blocklist:<id>` or `mikrotik:<deviceId>`; the bare words on legacy rows of
migration 037. -/
inductive OriginRef
  | blocklist (id : Nat)
  | mikrotik (deviceId : Nat)
  | bareBlocklist
  | bareMikrotik
deriving DecidableEq, Repr

/-- A row of `ip_bans`. -/
structure BanRow where
  id : Nat
  target : Stored
  reason : Option String
  banType : BanType
  scope : Scope
  scopeId : Option Nat
  tenantId : Option Nat
  originTenantId : Option Nat
  originApp : Option String
  originRef : Option OriginRef
  bannedByUserId : Option Nat
  expiresAt : Option Int
  isActive : Bool
  liftedAt : Option Int
  liftReason : Option LiftReason
deriving DecidableEq

/-- The target of a ban row as a network, `networkSql`. -/
def BanRow.net (b : BanRow) : Net := b.target.networkSql.net

/-- `expires_at IS NULL OR expires_at > now()`. -/
def BanRow.unexpired (b : BanRow) (now : Int) : Bool := b.expiresAt.all fun e => e > now

/-- A row of `ip_ban_exclusions`. -/
structure Exclusion where
  banId : Nat
  tenantId : Nat
  createdBy : Option Nat
deriving DecidableEq

/-- A row of `ip_whitelist`; the column `ip` is of type `cidr`, a network. -/
structure WhitelistRow where
  id : Nat
  ip : Net
  label : Option String
  scope : Scope
  scopeId : Option Nat
  tenantId : Option Nat
  createdBy : Option Nat
  createdAt : Int
deriving DecidableEq

/-- A row of `agent_devices`. -/
structure Device where
  id : Nat
  tenantId : Nat
  groupId : Option Nat
  capabilities : List String
deriving DecidableEq

/-- A row of `monitor_groups`. -/
structure Group where
  id : Nat
  tenantId : Nat
deriving DecidableEq

/-- A row of `group_closure`. -/
structure Closure where
  ancestorId : Nat
  descendantId : Nat
  depth : Nat
deriving DecidableEq

/-- `remote_blocklists.source_type`. -/
inductive SourceType
  | oblitools
  | url
deriving DecidableEq, Repr

/-- A row of `remote_blocklists`. -/
structure Blocklist where
  id : Nat
  name : String
  sourceType : SourceType
  url : String
  apiKey : Option String
  enforce : Bool
  tenantId : Option Nat
deriving DecidableEq

/-- `remote_blocked_ips.status`; only `banned` is ever compared with. -/
inductive EntryStatus
  | banned
  | suspicious
deriving DecidableEq, Repr

/-- A row of `remote_blocked_ips`. -/
structure BlockedIp where
  id : Nat
  blocklistId : Nat
  ip : Inet
  reason : Option String
  reports : Nat
  lastSeen : Int
  enabled : Bool
  status : EntryStatus
deriving DecidableEq

/-- `ip_events.event_type`; every type but the failures is one. -/
inductive EventType
  | authFailure
  | other
deriving DecidableEq, Repr

/-- A row of `ip_events`. -/
structure IpEvent where
  deviceId : Nat
  tenantId : Nat
  ip : Inet
  username : Option String
  service : String
  eventType : EventType
  trackOnly : Bool
  timestamp : Int
  rawLog : Option (List UInt8)
deriving DecidableEq

/-- The tables, with the registry of unsafe rows that `banSafetyAudit` keeps in memory. -/
structure Db where
  bans : Table BanRow.id
  exclusions : List Exclusion
  whitelist : Table WhitelistRow.id
  devices : Table Device.id
  groups : Table Group.id
  closure : List Closure
  blocklists : Table Blocklist.id
  blockedIps : Table BlockedIp.id
  events : List IpEvent
  unsafeIds : List Nat

/-- The tables of a new installation. -/
def Db.empty : Db := ⟨.empty, [], .empty, .empty, .empty, [], .empty, .empty, [], []⟩

/-- Device 7 of tenant 2, which enforces subnets. -/
def subnetDevices : Table Device.id := ⟨[⟨7, 2, none, ["cidr"]⟩], 8, by decide, by decide, by decide⟩

/-- `MASTER_TENANT_ID`: the Default tenant. -/
def masterTenantId : Nat := 1

/-- `isMasterTenant`. -/
def isMasterTenant (tenantId : Nat) : Bool := tenantId == masterTenantId

end Obliguard.Server

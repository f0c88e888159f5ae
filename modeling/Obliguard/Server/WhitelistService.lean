import Obliguard.Server.BanService

/-!
# The operator's writes to the whitelist

`create` and `delete` of `server/src/services/whitelist.service.ts`, with the ownership rules of
`tenantScope.service.ts` and `tenantWriteRules.ts`. The cast of a text to the SQL type `cidr` is
PostgreSQL's and is a parameter (`castCidr`; `none` is the error 22P02).
-/

namespace Obliguard.Server

open Bans IpValidation Text Numeral

/-- `isInetLiteral`: an address, alone or with a prefix length of its family. -/
def isInetLiteral (v : String) : Bool :=
  match (jsTrim v.toList).splitOn '/' with
  | [addr] => (isIP addr).isSome
  | [addr, p] => (isIP addr).any fun family =>
      decide (1 ≤ p.length) && decide (p.length ≤ 3) && p.all (isDigit 10) &&
        decide (ofDigits 10 p ≤ family.bits)
  | _ => false

/-- `CreateWhitelistRequest`. A missing scope is `none`, and so is an unknown one. -/
structure CreateWhitelistRequest where
  ip : Option String
  label : Option String
  scope : Option Scope
  /-- `none` when missing, `some none` when it is no integer. -/
  scopeId : Option (Option Int)

def whitelistIpError : ApiError :=
  ⟨400, .whitelistIpInvalid, "ip must be an IP address or a CIDR range", []⟩

/-- `resolveScopeTenant` for a group or an agent: the tenant owning the target. -/
def resolveScopeTenant (db : Db) (scope : Scope) (scopeId : Option Nat) : Option Nat :=
  match scope with
  | .agent => (scopeId.bind db.devices.find).map (·.tenantId)
  | .group => (scopeId.bind db.groups.find).map (·.tenantId)
  | .tenant => scopeId
  | .global => none

/-- `assertScopeInTenant` for a group or an agent, in mode `write`. -/
def assertScopeInTenant (db : Db) (scope : Scope) (scopeId : Option Int) (tenantId : Nat) :
    Except ApiError Nat :=
  let id := (scopeId.getD 0).toNat
  let notFound : ApiError := if scope = .agent then ⟨404, .agentNotFound, "Device not found", []⟩
    else ⟨404, .groupNotFound, "Group not found", []⟩
  if id = 0 then .error ⟨400, .scopeIdInvalid, "Invalid scopeId", []⟩
  else match resolveScopeTenant db scope (some id) with
  | none => .error notFound
  | some owner =>
    if owner = tenantId then .ok id
    else if isMasterTenant tenantId then .error ⟨403, .foreignTenantReadOnly,
      if scope = .agent then "This agent belongs to another tenant: read-only from the Default tenant"
      else "This group belongs to another tenant: read-only from the Default tenant", []⟩
    else .error notFound

/-- The scope of a new entry with its scope id. -/
def whitelistScope (db : Db) (tenantId : Nat) (req : CreateWhitelistRequest) :
    Except ApiError (Scope × Option Nat) :=
  let owned (scope : Scope) : Except ApiError (Scope × Option Nat) :=
    match req.scopeId with
    | none => .error ⟨400, .scopeIdRequired, "scopeId is required for group/agent scope", []⟩
    | some id => (assertScopeInTenant db scope id tenantId).map fun id => (scope, some id)
  match req.scope with
  | some .group => owned .group
  | some .agent => owned .agent
  | _ => .ok (if isMasterTenant tenantId then .global else .tenant, none)

/-- The row of a new entry. -/
def whitelistRow (c : Caller) (now : Int) (req : CreateWhitelistRequest) (ip : Net)
    (s : Scope × Option Nat) (id : Nat) : WhitelistRow where
  id := id
  ip := ip
  label := req.label
  scope := s.1
  scopeId := s.2
  tenantId := if s.1 = .global then none else some c.tenantId
  createdBy := if c.userId = 0 then none else some c.userId
  createdAt := now

theorem whitelistRow_id (c : Caller) (now : Int) (req : CreateWhitelistRequest) (ip : Net)
    (s : Scope × Option Nat) (id : Nat) : (whitelistRow c now req ip s id).id = id := rfl

/-- The unique key of migration 029. -/
def whitelistKey (w : WhitelistRow) : Net × Scope × Nat × Nat :=
  (w.ip, w.scope, w.scopeId.getD 0, w.tenantId.getD 0)

/-- The checks of `create` on a whitelist entry. -/
def whitelistChecks (castCidr : String → Option Net) (c : Caller) (req : CreateWhitelistRequest)
    (db : Db) : Except ApiError (Net × Scope × Option Nat) := do
  let ip ← req.ip.elim (.error whitelistIpError) .ok
  let () ← require (isInetLiteral ip) whitelistIpError
  let s ← whitelistScope db c.tenantId req
  let n ← (castCidr (String.ofList (jsTrim ip.toList))).elim (.error whitelistIpError) .ok
  return (n, s)

/-- `create`. -/
def createWhitelist (castCidr : String → Option Net) (c : Caller) (now : Int)
    (req : CreateWhitelistRequest) (db : Db) : Except ApiError WhitelistRow × Db :=
  match whitelistChecks castCidr c req db with
  | .error e => (.error e, db)
  | .ok (n, s) =>
    let row := whitelistRow c now req n s db.whitelist.seq
    if db.whitelist.rows.any fun w => whitelistKey w == whitelistKey row then
      (.error ⟨409, .whitelistDuplicate, "This address is already whitelisted in this scope", []⟩, db)
    else (.ok row, { db with
      whitelist := db.whitelist.insert (whitelistRow c now req n s) (whitelistRow_id c now req n s) })

/-- The verdicts of `whitelistDeleteVerdict`. -/
inductive DeleteVerdict
  | ok
  | forbiddenGlobal
  | forbiddenForeign
  | notFound

/-- `whitelistDeleteVerdict`: a global entry from the Default tenant only; a local one by its owner
or by the tenant owning the targeted agent or group. -/
def whitelistDeleteVerdict (w : WhitelistRow) (targetTenantId : Option Nat) (tenantId : Nat) :
    DeleteVerdict :=
  if w.scope = .global then if isMasterTenant tenantId then .ok else .forbiddenGlobal
  else if tenantId = w.tenantId.getD masterTenantId ∨ targetTenantId = some tenantId then .ok
  else if isMasterTenant tenantId then .forbiddenForeign else .notFound

/-- The tenant of the agent or group that an entry is put on. -/
def entryTarget (db : Db) (w : WhitelistRow) : Option Nat :=
  match w.scope with
  | .group | .agent => resolveScopeTenant db w.scope w.scopeId
  | .global | .tenant => none

theorem whitelistDeleteVerdict_ok {w : WhitelistRow} {target : Option Nat} {tenantId : Nat}
    (hm : isMasterTenant tenantId = false) (h : whitelistDeleteVerdict w target tenantId = .ok) :
    w.scope ≠ .global ∧ (w.tenantId = some tenantId ∨ target = some tenantId) := by
  unfold whitelistDeleteVerdict at h
  simp only [hm, Bool.false_eq_true, if_false] at h
  split at h
  · contradiction
  · rename_i hscope
    split at h
    · rename_i hown
      refine ⟨hscope, hown.imp_left ?_⟩
      intro hown
      cases ht : w.tenantId with
      | none =>
        rw [ht, Option.getD_none] at hown
        rw [hown] at hm
        contradiction
      | some o =>
        rw [ht, Option.getD_some] at hown
        rw [hown]
    · contradiction

def whitelistNotFoundError : ApiError :=
  ⟨404, .whitelistEntryNotFound, "Whitelist entry not found", []⟩

/-- `delete`. -/
def deleteWhitelist (c : Caller) (id : Nat) (db : Db) : Except ApiError Unit × Db :=
  match db.whitelist.find id with
  | none => (.error whitelistNotFoundError, db)
  | some w =>
    if c.writableAgentIds.any fun allowed => !teamScopeAllows db w.scope w.scopeId allowed then
      (.error whitelistNotFoundError, db)
    else match whitelistDeleteVerdict w (entryTarget db w) c.tenantId with
      | .forbiddenGlobal => (.error ⟨403, .whitelistGlobalReadOnly,
          "A global whitelist entry can only be removed from the Default tenant", []⟩, db)
      | .forbiddenForeign => (.error ⟨403, .foreignTenantReadOnly,
          "This whitelist entry belongs to another tenant: read-only from the Default tenant", []⟩, db)
      | .notFound => (.error whitelistNotFoundError, db)
      | .ok => (.ok (), { db with whitelist := db.whitelist.delete fun r => r.id == id })

end Obliguard.Server

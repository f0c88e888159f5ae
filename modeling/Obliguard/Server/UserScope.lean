import Obliguard.Lib.Checks
import Obliguard.Lib.Keyed
import Obliguard.Lib.Table
import Obliguard.Lib.Text

/-!
# Who may manage whom

The rules of `services/userScope.service.ts` over the accounts and the tenant memberships, with the capabilities of
`shared/src/types.ts` and `capsOfRole`. A manager that is not a platform admin reaches only local accounts that it
dominates in each of their tenants (`assertManageableTarget_delegated`), and grants only what it holds itself
(`assertGrantableRole_delegated`).
-/

namespace Obliguard.Server

open Checks Text

/-! ## Tables -/

/-- `users.role`. -/
inductive PlatformRole
  | admin
  | user
deriving DecidableEq

structure Account where
  id : Nat
  username : String
  role : PlatformRole
  isActive : Bool
  foreignSource : Option String
deriving DecidableEq

/-- A row of `user_tenants`. -/
structure TenantMember where
  userId : Nat
  tenantId : Nat
  role : String
deriving DecidableEq

/-- The primary key of `user_tenants`. -/
def TenantMember.key (m : TenantMember) : Nat × Nat := (m.userId, m.tenantId)

/-- `SLUG_RE` of `permissionSet.service.ts`. -/
def isSlug (role : String) : Bool :=
  let slugChar (c : Char) : Bool := decide (97 ≤ c.toNat ∧ c.toNat ≤ 122) || decide (48 ≤ c.toNat ∧ c.toNat ≤ 57)
  match role.toList with
  | [] => false
  | c :: rest => slugChar c && rest.length ≤ 63 && rest.all fun c => slugChar c || c = '_' || c = '-'

/-- The tables; the slug of a permission set is one that its service accepts. -/
structure UserDb where
  users : Table Account.id
  members : Keyed TenantMember.key
  tenants : List Nat
  /-- `permission_sets`: the capabilities of a slug, as they are stored. -/
  permissionSets : String → Option (List String)
  slugs : ∀ slug, (permissionSets slug).isSome → isSlug slug = true ∧ slug ≠ "member"

/-! ## Capabilities -/

/-- `TENANT_ROLE_ADMIN`. -/
def tenantRoleAdmin : String := "admin"

/-- `TENANT_ROLE_DEFAULT`. -/
def tenantRoleDefault : String := "user"

def tenantCapabilityKeys : List String :=
  ["ips.view", "bans.create", "bans.lift", "bans.promote", "bans.wipe", "whitelist.write", "ip.labels",
    "ip.reputation.clear", "templates.write", "agents.manage", "agents.update", "agents.delete", "agents.keys",
    "agents.approve", "firewall.rules.read", "firewall.rules.write", "groups.manage", "notifications.manage",
    "settings", "integrations.mikrotik", "integrations.m365", "rate_limit.write", "remote_blocklists", "users.manage",
    "audit.read"]

/-- `CAPABILITY_ALIASES`. -/
def capabilityAliases : String → Option (List String)
  | "monitor_rw" => some ["agents.manage", "agents.update", "firewall.rules.read"]
  | "agents_rw" => some ["agents.manage", "agents.update", "firewall.rules.read"]
  | "group_rw" => some ["groups.manage"]
  | "whitelist" => some ["whitelist.write"]
  | "bans" => some ["bans.create", "bans.lift"]
  | _ => none

def expandCapability (key : String) : List String :=
  if tenantCapabilityKeys.contains key then [key] else (capabilityAliases key).getD []

def expandCapabilities (keys : List String) : List String :=
  tenantCapabilityKeys.filter fun c => (keys.flatMap expandCapability).contains c

/-- `normalizeTenantRole`. -/
def normalizeTenantRole (role : String) : String := if role = "member" then tenantRoleDefault else role

/-- `normaliseTenantRole` of `userScope.service.ts`. -/
def normaliseTenantRole (role : String) : String :=
  let r := String.ofList (jsTrim role.toList)
  if r = "" then tenantRoleDefault else normalizeTenantRole r

/-- What a role may do. -/
inductive Caps
  | all
  | set (keys : List String)
deriving DecidableEq

/-- The capability is among them. -/
def Caps.Has : Caps → String → Prop
  | .all, _ => True
  | .set keys, cap => cap ∈ keys

def capsOfRole (db : UserDb) (role : String) : Option Caps :=
  if role = tenantRoleAdmin then some .all
  else (db.permissionSets role).map fun keys => .set (expandCapabilities keys)

def membershipRole (db : UserDb) (userId tenantId : Nat) : Option String :=
  (db.members.find (userId, tenantId)).map fun m => normaliseTenantRole m.role

theorem slug_chars {role : String} (h : isSlug role = true) :
    role.toList ≠ [] ∧ ∀ c ∈ role.toList, 45 ≤ c.toNat ∧ c.toNat ≤ 122 := by
  unfold isSlug at h
  dsimp only at h
  split at h
  · contradiction
  · rename_i c rest hlist
    rw [Bool.and_eq_true, Bool.and_eq_true, List.all_eq_true, Bool.or_eq_true, decide_eq_true_eq,
      decide_eq_true_eq] at h
    obtain ⟨⟨hc, -⟩, hrest⟩ := h
    rw [hlist]
    refine ⟨List.cons_ne_nil c rest, List.forall_mem_cons.mpr ⟨by omega, fun d hd => ?_⟩⟩
    have hslug := hrest d hd
    rw [Bool.or_eq_true, Bool.or_eq_true, Bool.or_eq_true, decide_eq_true_eq, decide_eq_true_eq, decide_eq_true_eq,
      decide_eq_true_eq] at hslug
    rcases hslug with ((hd | hd) | rfl) | rfl
    · omega
    · omega
    · decide
    · decide

theorem jsTrim_slug {role : String} (h : isSlug role = true) : String.ofList (jsTrim role.toList) = role := by
  have hspace : ∀ c ∈ role.toList, isJsSpace c = false := by
    intro c hc
    obtain ⟨hlo, hhi⟩ := (slug_chars h).2 c hc
    unfold isJsSpace sharedSpace
    simp only [Bool.or_eq_false_iff, Bool.and_eq_false_iff, decide_eq_false_iff_not, beq_eq_false_iff_ne]
    omega
  rw [jsTrim, trimBy_eq_self hspace, String.ofList_toList]

theorem normalise_known {db : UserDb} {role : String} (h : (capsOfRole db role).isSome) :
    normalizeTenantRole role = role ∧ normaliseTenantRole role = role := by
  have hslug : isSlug role = true ∧ role ≠ "member" := by
    unfold capsOfRole at h
    split at h
    · rename_i hadmin
      rw [hadmin]
      exact ⟨by decide, by decide⟩
    · rw [Option.isSome_map] at h
      exact db.slugs role h
  obtain ⟨hslug, hmember⟩ := hslug
  have hnormal : normalizeTenantRole role = role := if_neg hmember
  have hne : role ≠ "" := by
    rintro rfl
    exact (slug_chars hslug).1 rfl
  refine ⟨hnormal, ?_⟩
  rw [normaliseTenantRole, jsTrim_slug hslug]
  rw [if_neg hne, hnormal]

/-! ## Rules -/

/-- `ScopeActor`. -/
structure ScopeActor where
  userId : Nat
  isPlatformAdmin : Bool
  tenantId : Nat
deriving DecidableEq

/-- `codedError`. -/
structure UserError where
  status : Nat
  code : String
  message : String
deriving DecidableEq

/-- `Refusal`. -/
structure Refusal where
  code : String
  message : String

/-- `MORE_PERMISSIONS`. -/
def morePermissions : Refusal := ⟨"USER_HAS_MORE_PERMISSIONS", "This user has permissions you do not hold"⟩

/-- `refusalFor`. -/
def refusalFor (db : UserDb) (actor : ScopeActor) (tenantId : Nat) (targetRole : String) : Option Refusal :=
  let callerRole := membershipRole db actor.userId tenantId
  if callerRole = some tenantRoleAdmin then none
  else if targetRole = tenantRoleAdmin then
    some ⟨"TENANT_ADMIN_MANAGE_REQUIRES_ADMIN",
      "Only an administrator of each of this user's tenants can manage a tenant administrator"⟩
  else
    match callerRole.bind (capsOfRole db) with
    | some .all => none
    | none => some ⟨"USER_MANAGE_FOREIGN_TENANT", "This user also belongs to a tenant where you cannot manage users"⟩
    | some (.set held) =>
      if !held.contains "users.manage" then
        some ⟨"USER_MANAGE_FOREIGN_TENANT", "This user also belongs to a tenant where you cannot manage users"⟩
      else
        match capsOfRole db targetRole with
        | some .all => some morePermissions
        | some (.set keys) => if keys.all held.contains then none else some morePermissions
        | none => none

/-- `Number.MAX_SAFE_INTEGER`. -/
def maxUserId : Nat := 2 ^ 53 - 1

def userNotFound : UserError := ⟨404, "USER_NOT_FOUND", "User not found"⟩

/-- An account of Obligate. -/
def Account.isForeign (a : Account) : Bool := a.foreignSource.any (· ≠ "")

def assertManageableTarget (db : UserDb) (actor : ScopeActor) (targetId : Nat) : Except UserError Account := do
  refuseIf (targetId = 0 ∨ maxUserId < targetId) ⟨400, "USER_ID_INVALID", "Invalid user id"⟩
  let target ← need (db.users.find targetId) userNotFound
  if actor.isPlatformAdmin then return target
  else
    let rows := db.members.rows.filter (·.userId = targetId)
    refuseIf (!rows.any (·.tenantId = actor.tenantId)) userNotFound
    refuseIf (target.role = .admin)
      ⟨403, "ADMIN_PLATFORM_ONLY", "Only a platform administrator can manage an administrator account"⟩
    refuseIf target.isForeign ⟨403, "SSO_USER_MANAGED", "SSO accounts are managed in Obligate"⟩
    match rows.findSome? fun r => refusalFor db actor r.tenantId (normaliseTenantRole r.role) with
    | some refusal => .error ⟨403, refusal.code, refusal.message⟩
    | none => return target

def assertGrantableRole (db : UserDb) (actor : ScopeActor) (role : String) : Except UserError Unit :=
  if actor.isPlatformAdmin then .ok ()
  else if role = tenantRoleAdmin then
    refuseIf (membershipRole db actor.userId actor.tenantId ≠ some tenantRoleAdmin)
      ⟨403, "TENANT_ADMIN_GRANT_REQUIRES_ADMIN",
        "Only a tenant administrator can grant the tenant administrator role"⟩
  else do
    refuseIf (capsOfRole db role).isNone
      ⟨400, "invalidTenantRole", "Unknown role '" ++ role ++ "': it must be the slug of a permission set"⟩
    refuseIf (refusalFor db actor actor.tenantId role).isSome
      ⟨403, "ROLE_EXCEEDS_OWN_PERMISSIONS", "You can only grant a role whose permissions you hold"⟩

/-- `assertMembershipChange`, with the current role. -/
def assertMembershipChange (db : UserDb) (actor : ScopeActor) (targetId : Nat) (nextRole : Option String) :
    Except UserError (Option String) := do
  refuseIf (targetId = actor.userId ∧ !actor.isPlatformAdmin)
    ⟨403, "CANNOT_CHANGE_OWN_ACCESS", "You cannot change your own tenant access"⟩
  let _ ← assertManageableTarget db actor targetId
  nextRole.elim (.ok ()) (assertGrantableRole db actor)
  return membershipRole db targetId actor.tenantId

/-- `TenantAssignment`. -/
structure TenantAssignment where
  tenantId : Nat
  role : String
deriving DecidableEq

/-- An element of the request: `none` where a field is not a number, or not a string. -/
structure AssignmentInput where
  tenantId : Option Int
  role : Option String

def invalidAssignments : UserError :=
  ⟨400, "TENANT_ASSIGNMENTS_INVALID", "assignments must be an array of \x7b tenantId, role \x7d"⟩

/-- The checks of the elements; `seen` are the tenants of those before. -/
def wantedAssignments (seen : List Nat) : List AssignmentInput → Except UserError (List TenantAssignment)
  | [] => .ok []
  | a :: rest => do
    let tenantId ← need (a.tenantId.bind fun t => if 0 < t ∧ t ≤ maxUserId then some t.toNat else none)
      ⟨400, "TENANT_ASSIGNMENTS_INVALID", "Invalid tenant id"⟩
    let role ← need (a.role.filter (· ≠ "")) invalidAssignments
    refuseIf (seen.contains tenantId)
      ⟨400, "TENANT_ASSIGNMENT_DUPLICATE", "Duplicate tenantId in assignments"⟩
    let wanted ← wantedAssignments (tenantId :: seen) rest
    return ⟨tenantId, normaliseTenantRole role⟩ :: wanted

/-- `resolveTenantAssignments`; `none` is a request that is no array. -/
def resolveTenantAssignments (db : UserDb) (actor : ScopeActor) (targetId : Nat)
    (assignments : Option (List AssignmentInput)) : Except UserError (List TenantAssignment) := do
  let inputs ← need assignments invalidAssignments
  let wanted ← wantedAssignments [] inputs
  if actor.isPlatformAdmin then return wanted
  else
    let next := wanted.find? (·.tenantId = actor.tenantId)
    let _ ← assertMembershipChange db actor targetId (next.map (·.role))
    let current := (db.members.rows.filter (·.userId = targetId)).map fun m =>
      TenantAssignment.mk m.tenantId (normaliseTenantRole m.role)
    let kept := current.filter (·.tenantId ≠ actor.tenantId)
    refuseIf (wanted.any fun w => w.tenantId ≠ actor.tenantId ∧
        (kept.find? (·.tenantId = w.tenantId)).all (·.role ≠ w.role))
      ⟨403, "TENANT_ACCESS_CURRENT_ONLY", "You can only change access to the current tenant"⟩
    return kept ++ next.toList

/-! ## What a manager that is no platform admin reaches -/

section delegated
variable {db : UserDb} {actor : ScopeActor} {targetId : Nat}

/-- An account that only a platform admin manages. -/
def Account.Reserved (a : Account) : Prop := a.role = .admin ∨ a.isForeign = true

theorem assertManageableTarget_find {target : Account} (h : assertManageableTarget db actor targetId = .ok target) :
    db.users.find targetId = some target := by
  unfold assertManageableTarget at h
  obtain ⟨_, -, h⟩ := Checks.bind_eq_ok.mp h
  obtain ⟨found, hfound, h⟩ := Checks.bind_eq_ok.mp h
  rw [need_eq_ok] at hfound
  rw [hfound]
  split at h
  · rw [Except.ok.inj h]
  · obtain ⟨_, -, h⟩ := Checks.bind_eq_ok.mp h
    obtain ⟨_, -, h⟩ := Checks.bind_eq_ok.mp h
    obtain ⟨_, -, h⟩ := Checks.bind_eq_ok.mp h
    split at h
    · contradiction
    · rw [Except.ok.inj h]

theorem assertManageableTarget_delegated {target : Account} (hactor : actor.isPlatformAdmin = false)
    (h : assertManageableTarget db actor targetId = .ok target) : ¬target.Reserved := by
  have hfind := assertManageableTarget_find h
  unfold assertManageableTarget at h
  obtain ⟨_, -, h⟩ := Checks.bind_eq_ok.mp h
  obtain ⟨found, hfound, h⟩ := Checks.bind_eq_ok.mp h
  rw [need_eq_ok, hfind] at hfound
  obtain rfl := Option.some.inj hfound
  rw [if_neg (Bool.eq_false_iff.mp hactor)] at h
  obtain ⟨_, -, h⟩ := Checks.bind_eq_ok.mp h
  obtain ⟨_, hadmin, h⟩ := Checks.bind_eq_ok.mp h
  obtain ⟨_, hforeign, -⟩ := Checks.bind_eq_ok.mp h
  rw [refuseIf_eq_ok] at hadmin hforeign
  rintro (hrole | hsso)
  · exact of_decide_eq_false hadmin hrole
  · exact Bool.eq_false_iff.mp hforeign hsso

/-- The role holds the capability. -/
def RoleHas (db : UserDb) (role cap : String) : Prop := ∃ caps, capsOfRole db role = some caps ∧ caps.Has cap

theorem roleHas_admin (db : UserDb) (cap : String) : RoleHas db tenantRoleAdmin cap := by
  refine ⟨.all, ?_, trivial⟩
  rw [capsOfRole, if_pos rfl]

theorem refusalFor_none {tenantId : Nat} {role cap : String} (h : refusalFor db actor tenantId role = none)
    (hrole : RoleHas db role cap) :
    ∃ held, membershipRole db actor.userId tenantId = some held ∧ RoleHas db held cap := by
  obtain ⟨caps, hcaps, hcap⟩ := hrole
  unfold refusalFor at h
  dsimp only at h
  split at h
  · rename_i hadmin
    exact ⟨tenantRoleAdmin, hadmin, roleHas_admin db cap⟩
  · split at h
    · contradiction
    · split at h
      · rename_i hall
        obtain ⟨held, hheld, hall⟩ := Option.bind_eq_some_iff.mp hall
        exact ⟨held, hheld, .all, hall, trivial⟩
      · contradiction
      · rename_i keys hkeys
        obtain ⟨held, hheld, hkeys⟩ := Option.bind_eq_some_iff.mp hkeys
        split at h
        · contradiction
        · rw [hcaps] at h
          cases caps with
          | all => contradiction
          | set wanted =>
            dsimp only at h
            split at h
            · rename_i hsub
              exact ⟨held, hheld, .set keys, hkeys, List.contains_iff_mem.mp (List.all_eq_true.mp hsub cap hcap)⟩
            · contradiction

theorem assertGrantableRole_delegated {role cap : String} (hactor : actor.isPlatformAdmin = false)
    (h : assertGrantableRole db actor role = .ok ()) (hrole : RoleHas db role cap) :
    ∃ held, membershipRole db actor.userId actor.tenantId = some held ∧ RoleHas db held cap := by
  unfold assertGrantableRole at h
  rw [if_neg (Bool.eq_false_iff.mp hactor)] at h
  split at h
  · rw [refuseIf_eq_ok] at h
    exact ⟨tenantRoleAdmin, not_not.mp (of_decide_eq_false h), roleHas_admin db cap⟩
  · obtain ⟨_, -, h⟩ := Checks.bind_eq_ok.mp h
    rw [refuseIf_eq_ok, Option.isSome_eq_false_iff, Option.isNone_iff_eq_none] at h
    exact refusalFor_none h hrole

theorem assertGrantableRole_known {role : String} (hactor : actor.isPlatformAdmin = false)
    (h : assertGrantableRole db actor role = .ok ()) : (capsOfRole db role).isSome := by
  unfold assertGrantableRole at h
  rw [if_neg (Bool.eq_false_iff.mp hactor)] at h
  split at h
  · rename_i hadmin
    rw [capsOfRole, if_pos hadmin]
    rfl
  · obtain ⟨_, hknown, -⟩ := Checks.bind_eq_ok.mp h
    rw [refuseIf_eq_ok] at hknown
    exact Option.isNone_eq_false_iff.mp hknown

/-- Somebody holds the capability in a tenant. -/
def Held (db : UserDb) (t : Nat) (cap : String) : Prop :=
  ∃ m ∈ db.members.rows, m.tenantId = t ∧ RoleHas db (normaliseTenantRole m.role) cap

theorem assertGrantableRole_held {role cap : String} (hactor : actor.isPlatformAdmin = false)
    (h : assertGrantableRole db actor role = .ok ())
    (hrole : RoleHas db (normaliseTenantRole (normalizeTenantRole role)) cap) : Held db actor.tenantId cap := by
  obtain ⟨hnormal, hnormalise⟩ := normalise_known (assertGrantableRole_known hactor h)
  rw [hnormal, hnormalise] at hrole
  obtain ⟨held, hheld, hcap⟩ := assertGrantableRole_delegated hactor h hrole
  obtain ⟨m, hm, rfl⟩ := Option.map_eq_some_iff.mp hheld
  obtain ⟨hm, hkey⟩ := Keyed.find_eq_some.mp hm
  exact ⟨m, hm, congrArg Prod.snd hkey, hcap⟩

theorem assertMembershipChange_delegated {nextRole current : Option String}
    (h : assertMembershipChange db actor targetId nextRole = .ok current) :
    (∃ target, assertManageableTarget db actor targetId = .ok target) ∧
      (∀ role ∈ nextRole, assertGrantableRole db actor role = .ok ()) ∧
      current = membershipRole db targetId actor.tenantId := by
  unfold assertMembershipChange at h
  obtain ⟨_, -, h⟩ := Checks.bind_eq_ok.mp h
  obtain ⟨target, htarget, h⟩ := Checks.bind_eq_ok.mp h
  obtain ⟨u, hgrant, h⟩ := Checks.bind_eq_ok.mp h
  refine ⟨⟨target, htarget⟩, fun role hrole => ?_, (Except.ok.inj h).symm⟩
  rw [Option.mem_def.mp hrole] at hgrant
  exact hgrant

/-- Outside its tenant a manager leaves the memberships as they are. -/
theorem resolveTenantAssignments_delegated {inputs : Option (List AssignmentInput)} {resolved : List TenantAssignment}
    (hactor : actor.isPlatformAdmin = false)
    (h : resolveTenantAssignments db actor targetId inputs = .ok resolved) :
    (∃ target, assertManageableTarget db actor targetId = .ok target) ∧
      ∀ a ∈ resolved, (a.tenantId = actor.tenantId ∧ assertGrantableRole db actor a.role = .ok ()) ∨
        ∃ m ∈ db.members.rows, m.userId = targetId ∧ m.tenantId = a.tenantId ∧ normaliseTenantRole m.role = a.role := by
  unfold resolveTenantAssignments at h
  obtain ⟨inputs, -, h⟩ := Checks.bind_eq_ok.mp h
  obtain ⟨wanted, -, h⟩ := Checks.bind_eq_ok.mp h
  rw [if_neg (Bool.eq_false_iff.mp hactor)] at h
  obtain ⟨current, hchange, h⟩ := Checks.bind_eq_ok.mp h
  obtain ⟨_, -, h⟩ := Checks.bind_eq_ok.mp h
  obtain ⟨htarget, hgrant, -⟩ := assertMembershipChange_delegated hchange
  refine ⟨htarget, fun a ha => ?_⟩
  rw [← Except.ok.inj h] at ha
  rcases List.mem_append.mp ha with ha | ha
  · obtain ⟨m, hm, rfl⟩ := List.mem_map.mp (List.mem_of_mem_filter ha)
    obtain ⟨hm, huser⟩ := List.mem_filter.mp hm
    exact .inr ⟨m, hm, of_decide_eq_true huser, rfl, rfl⟩
  · have hnext := Option.mem_toList.mp ha
    have htenant := List.find?_some hnext
    rw [decide_eq_true_eq] at htenant
    refine .inl ⟨htenant, hgrant a.role ?_⟩
    rw [Option.mem_def.mp hnext]
    rfl

end delegated

end Obliguard.Server

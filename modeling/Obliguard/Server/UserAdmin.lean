import Obliguard.Lib.Runs
import Obliguard.Server.UserScope

/-!
# Managing accounts

The operations of `services/userAdmin.service.ts` on the accounts and the memberships, one after the other. Passwords,
display names and sessions are left out.

No run of them takes the last active platform administrator (`platform_keeps_an_admin`). A run of managers that are no
platform admins leaves the platform admins and the accounts of Obligate as they are, gives nobody a capability in a
tenant that nobody held there, and leaves no tenant without an active administrator that had one
(`delegated_run`).
-/

namespace Obliguard.Server

open Checks Runs

/-! ## Operations -/

/-- What the error handler answers where a foreign key is violated, a unique constraint, and for any other error. -/
def invalidReference : UserError := ⟨400, "INVALID_REFERENCE", "A referenced entry does not exist"⟩

def conflict : UserError := ⟨409, "CONFLICT", "This entry already exists"⟩

def internalError : UserError := ⟨500, "INTERNAL", "Internal server error"⟩

/-- Active platform administrators other than `exceptId`. -/
def otherActivePlatformAdmins (db : UserDb) (exceptId : Nat) : Nat :=
  (db.users.rows.filter fun a => a.role = .admin ∧ a.isActive ∧ a.id ≠ exceptId).length

/-- Active tenant administrators of `tenantId` other than `exceptId`. -/
def otherActiveTenantAdmins (db : UserDb) (tenantId exceptId : Nat) : Nat :=
  (db.members.rows.filter fun m => m.tenantId = tenantId ∧ m.role = tenantRoleAdmin ∧
    (db.users.find m.userId).any (·.isActive) ∧ m.userId ≠ exceptId).length

def assertTenantsKeepAnAdmin (db : UserDb) (actor : ScopeActor) (userId : Nat) (leaving : List Nat) :
    Except UserError Unit :=
  refuseIf (!actor.isPlatformAdmin && leaving.any fun t => otherActiveTenantAdmins db t userId = 0)
    ⟨400, "LAST_TENANT_ADMIN", "Cannot remove the last administrator of this tenant"⟩

/-- Tenants where `userId` is an administrator. -/
def adminTenantsOf (db : UserDb) (userId : Nat) : List Nat :=
  (db.members.rows.filter fun m => m.userId = userId ∧ m.role = tenantRoleAdmin).map (·.tenantId)

/-- `resolveRole` of `permissionSet.service.ts`. -/
def resolveRole (db : UserDb) (raw : String) : Except UserError String :=
  let role := normalizeTenantRole raw
  if raw = "" then .error ⟨400, "invalidTenantRole", "role must be the slug of a permission set"⟩
  else if role = tenantRoleAdmin then .ok role
  else if !isSlug role || (db.permissionSets role).isNone then
    .error ⟨400, "invalidTenantRole", "Unknown role '" ++ raw ++ "': it must be the slug of a permission set"⟩
  else .ok role

def resolveRoles (db : UserDb) : List TenantAssignment → Except UserError (List TenantAssignment)
  | [] => .ok []
  | a :: rest => do
    let role ← resolveRole db a.role
    let rows ← resolveRoles db rest
    return ⟨a.tenantId, role⟩ :: rows

/-- The membership with another role. -/
def TenantMember.setRole (role : String) (m : TenantMember) : TenantMember := { m with role }

theorem TenantMember.key_setRole (role : String) (m : TenantMember) : (m.setRole role).key = m.key := rfl

/-- `addUser` of `tenant.service.ts`. -/
def UserDb.addUser (db : UserDb) (tenantId userId : Nat) (role : String) : UserDb :=
  let role := normalizeTenantRole role
  let members := db.members.upsert ⟨userId, tenantId, role⟩ (fun _ => true) (.setRole role)
    (TenantMember.key_setRole role)
  { db with members }

/-- `removeUser` of `tenant.service.ts`. -/
def UserDb.removeUser (db : UserDb) (tenantId userId : Nat) : UserDb :=
  { db with members := db.members.delete fun m => m.tenantId = tenantId ∧ m.userId = userId }

/-- `delete` of `user.service.ts`; the memberships go with the account. -/
def UserDb.deleteUser (db : UserDb) (id : Nat) : UserDb :=
  { db with users := db.users.delete (·.id = id), members := db.members.delete (·.userId = id) }

/-- `setUserTenantAssignments` of `user.service.ts`. -/
def UserDb.setUserTenantAssignments (db : UserDb) (userId : Nat) (assignments : List TenantAssignment) :
    Option UserDb :=
  ((db.members.delete (·.userId = userId)).insertAll
    (assignments.map fun a => ⟨userId, a.tenantId, normalizeTenantRole a.role⟩)).map fun members => { db with members }

structure CreateUserInput where
  username : String
  role : Option PlatformRole
  tenantRole : Option String

/-- The row that `create` of `user.service.ts` inserts. -/
def CreateUserInput.account (data : CreateUserInput) (id : Nat) : Account :=
  ⟨id, data.username, data.role.getD .user, true, none⟩

theorem CreateUserInput.account_id (data : CreateUserInput) (id : Nat) : (data.account id).id = id := rfl

/-- The role that `createUserAccount` gives the account in the operating tenant. -/
def newTenantRole (actor : ScopeActor) (data : CreateUserInput) (db : UserDb) : Except UserError (Option String) :=
  if data.tenantRole.isSome ∨ !actor.isPlatformAdmin then do
    refuseIf (actor.tenantId = 0 ∨ maxUserId < actor.tenantId) ⟨400, "NO_TENANT_SELECTED", "No tenant selected"⟩
    let role ← resolveRole db (normaliseTenantRole (data.tenantRole.getD ""))
    assertGrantableRole db actor role
    return some role
  else .ok none

/-- `createUserAccount`. -/
def createUserAccount (actor : ScopeActor) (data : CreateUserInput) (db : UserDb) : Except UserError UserDb := do
  refuseIf (data.role = some .admin ∧ !actor.isPlatformAdmin)
    ⟨403, "ADMIN_PLATFORM_ONLY", "Only a platform administrator can create an administrator account"⟩
  let tenantRole ← newTenantRole actor data db
  refuseIf (db.users.rows.any (·.username = data.username)) ⟨409, "USERNAME_TAKEN", "Username already exists"⟩
  let users := db.users.insert data.account data.account_id
  match tenantRole with
  | none => return { db with users }
  | some role =>
    -- the insert fails where the tenant is gone, and the account is deleted again
    if actor.tenantId ∉ db.tenants then .error invalidReference
    else return UserDb.addUser { db with users } actor.tenantId db.users.seq role

structure UpdateUserInput where
  username : Option String
  role : Option PlatformRole
  isActive : Option Bool

/-- The row that `update` of `user.service.ts` leaves. -/
def UpdateUserInput.apply (data : UpdateUserInput) (a : Account) : Account :=
  { a with
    username := data.username.getD a.username
    role := data.role.getD a.role
    isActive := data.isActive.getD a.isActive }

theorem UpdateUserInput.apply_id (data : UpdateUserInput) (a : Account) : (data.apply a).id = a.id := rfl

/-- `updateUserAccount`. -/
def updateUserAccount (actor : ScopeActor) (targetId : Nat) (data : UpdateUserInput) (db : UserDb) :
    Except UserError UserDb := do
  let target ← assertManageableTarget db actor targetId
  refuseIf (data.role.any (· ≠ target.role) ∧ !actor.isPlatformAdmin)
    ⟨403, "USER_ROLE_PLATFORM_ONLY", "Only a platform administrator can change a user role"⟩
  refuseIf (!actor.isPlatformAdmin ∧ targetId = actor.userId ∧ data.isActive = some false)
    ⟨400, "CANNOT_DISABLE_SELF", "You cannot disable your own account"⟩
  refuseIf (target.foreignSource = some "obligate" ∧ (data.role.isSome ∨ data.isActive.isSome))
    ⟨400, "SSO_USER_MANAGED", "Cannot modify SSO user — manage from Obligate"⟩
  refuseIf (data.username.any (· ≠ target.username) ∧ target.isForeign)
    ⟨400, "SSO_USER_MANAGED", "Cannot change username of an SSO user"⟩
  refuseIf ((data.role = some .user ∨ data.isActive = some false) ∧ target.role = .admin ∧ target.isActive ∧
      otherActivePlatformAdmins db targetId = 0)
    ⟨400, "LAST_PLATFORM_ADMIN", "Cannot remove the last active admin"⟩
  (if data.isActive = some false ∧ target.isActive then
    assertTenantsKeepAnAdmin db actor targetId (adminTenantsOf db targetId) else .ok ())
  refuseIf (db.users.rows.any fun a => a.id ≠ targetId ∧ data.username = some a.username) conflict
  return { db with users := db.users.update (·.id = targetId) data.apply data.apply_id }

/-- `deleteUserAccount`. -/
def deleteUserAccount (actor : ScopeActor) (targetId : Nat) (db : UserDb) : Except UserError UserDb := do
  refuseIf (targetId = actor.userId) ⟨400, "CANNOT_DELETE_SELF", "Cannot delete your own account"⟩
  let target ← assertManageableTarget db actor targetId
  refuseIf (target.foreignSource = some "obligate" ∧ target.isActive)
    ⟨400, "SSO_USER_MANAGED", "Cannot delete an active SSO user — manage from Obligate"⟩
  refuseIf (target.role = .admin ∧ otherActivePlatformAdmins db targetId = 0)
    ⟨400, "LAST_PLATFORM_ADMIN", "Cannot delete the last admin"⟩
  (if target.isActive then assertTenantsKeepAnAdmin db actor targetId (adminTenantsOf db targetId) else .ok ())
  return db.deleteUser targetId

/-- `setUserTenants`. -/
def setUserTenants (actor : ScopeActor) (targetId : Nat) (assignments : Option (List AssignmentInput)) (db : UserDb) :
    Except UserError UserDb := do
  let resolved ← resolveTenantAssignments db actor targetId assignments
  refuseIf (resolved.any (·.tenantId ∉ db.tenants)) ⟨404, "TENANT_NOT_FOUND", "Tenant not found"⟩
  let rows ← resolveRoles db resolved
  let after := (rows.filter (·.role = tenantRoleAdmin)).map (·.tenantId)
  assertTenantsKeepAnAdmin db actor targetId ((adminTenantsOf db targetId).filter (· ∉ after))
  refuseIf (!rows.isEmpty && (db.users.find targetId).isNone) invalidReference
  need (db.setUserTenantAssignments targetId rows) conflict

/-- `setTenantMembership`; `none` is a removal. -/
def setTenantMembership (actor : ScopeActor) (targetId : Nat) (role : Option String) (db : UserDb) :
    Except UserError UserDb := do
  refuseIf actor.isPlatformAdmin
    internalError
  let currentRole ← assertMembershipChange db actor targetId role
  (if currentRole = some tenantRoleAdmin ∧ role ≠ some tenantRoleAdmin then
    assertTenantsKeepAnAdmin db actor targetId [actor.tenantId] else .ok ())
  return role.elim (db.removeUser actor.tenantId targetId) (db.addUser actor.tenantId targetId)

inductive UserAction
  | create (data : CreateUserInput)
  | update (targetId : Nat) (data : UpdateUserInput)
  | delete (targetId : Nat)
  | setTenants (targetId : Nat) (assignments : Option (List AssignmentInput))
  | setMembership (targetId : Nat) (role : Option String)

/-- A request of an actor. -/
def UserAction.perform (actor : ScopeActor) : UserAction → UserDb → Except UserError UserDb
  | .create data => createUserAccount actor data
  | .update targetId data => updateUserAccount actor targetId data
  | .delete targetId => deleteUserAccount actor targetId
  | .setTenants targetId assignments => setUserTenants actor targetId assignments
  | .setMembership targetId role => setTenantMembership actor targetId role

/-- The database after a request; one that is refused changes nothing. -/
def userStep (db : UserDb) (request : ScopeActor × UserAction) : Option UserDb :=
  match request.2.perform request.1 db with
  | .ok db' => some db'
  | .error _ => some db

/-! ## Administrators -/

section administrators
variable {db db' : UserDb} {actor : ScopeActor} {target t : Nat}

/-- An active platform administrator. -/
def PlatformAdmin (db : UserDb) (id : Nat) : Prop :=
  ∃ a ∈ db.users.rows, a.id = id ∧ a.role = .admin ∧ a.isActive = true

/-- An active administrator of a tenant. -/
def TenantAdmin (db : UserDb) (t id : Nat) : Prop :=
  (∃ m ∈ db.members.rows, m.userId = id ∧ m.tenantId = t ∧ m.role = tenantRoleAdmin) ∧
    ∃ a ∈ db.users.rows, a.id = id ∧ a.isActive = true

/-- Nothing but the account and its memberships changes. -/
structure OnlyTarget (target : Nat) (db db' : UserDb) : Prop where
  permissionSets : db'.permissionSets = db.permissionSets
  users : ∀ a : Account, a.id ≠ target → (a ∈ db'.users.rows ↔ a ∈ db.users.rows)
  members : ∀ m : TenantMember, m.userId ≠ target → (m ∈ db'.members.rows ↔ m ∈ db.members.rows)

theorem otherActivePlatformAdmins_ne (h : otherActivePlatformAdmins db target ≠ 0) :
    ∃ id, id ≠ target ∧ PlatformAdmin db id := by
  obtain ⟨a, ha⟩ := List.exists_mem_of_length_pos (Nat.pos_of_ne_zero h)
  obtain ⟨ha, hrole⟩ := List.mem_filter.mp ha
  obtain ⟨hrole, hactive, hid⟩ := of_decide_eq_true hrole
  exact ⟨a.id, hid, a, ha, rfl, hrole, hactive⟩

theorem otherActiveTenantAdmins_ne (h : otherActiveTenantAdmins db t target ≠ 0) :
    ∃ id, id ≠ target ∧ TenantAdmin db t id := by
  obtain ⟨m, hm⟩ := List.exists_mem_of_length_pos (Nat.pos_of_ne_zero h)
  obtain ⟨hm, hrole⟩ := List.mem_filter.mp hm
  obtain ⟨htenant, hrole, hactive, hid⟩ := of_decide_eq_true hrole
  cases hfind : db.users.find m.userId with
  | none =>
    rw [hfind] at hactive
    contradiction
  | some a =>
    rw [hfind] at hactive
    rw [Table.find_eq_some] at hfind
    exact ⟨m.userId, hid, ⟨m, hm, rfl, htenant, hrole⟩, a, hfind.1, hfind.2, hactive⟩

theorem OnlyTarget.platformAdmin {id : Nat} (h : OnlyTarget target db db') (hid : id ≠ target) :
    PlatformAdmin db' id ↔ PlatformAdmin db id := by
  refine exists_congr fun a => ?_
  constructor
  · rintro ⟨ha, rfl, hadmin⟩
    exact ⟨(h.users a hid).mp ha, rfl, hadmin⟩
  · rintro ⟨ha, rfl, hadmin⟩
    exact ⟨(h.users a hid).mpr ha, rfl, hadmin⟩

theorem OnlyTarget.tenantAdmin {id : Nat} (h : OnlyTarget target db db') (hid : id ≠ target)
    (hadmin : TenantAdmin db t id) : TenantAdmin db' t id := by
  obtain ⟨⟨m, hm, rfl, hm'⟩, a, ha, haid, hactive⟩ := hadmin
  exact ⟨⟨m, (h.members m hid).mpr hm, rfl, hm'⟩, a, (h.users a (haid ▸ hid)).mpr ha, haid, hactive⟩

theorem OnlyTarget.keeps_platform (h : OnlyTarget target db db')
    (htarget : PlatformAdmin db target → otherActivePlatformAdmins db target ≠ 0 ∨ PlatformAdmin db' target)
    (hadmin : ∃ id, PlatformAdmin db id) : ∃ id, PlatformAdmin db' id := by
  obtain ⟨id, hid⟩ := hadmin
  by_cases heq : id = target
  · rw [heq] at hid
    rcases htarget hid with hother | hkept
    · obtain ⟨other, hne, hother⟩ := otherActivePlatformAdmins_ne hother
      exact ⟨other, (h.platformAdmin hne).mpr hother⟩
    · exact ⟨target, hkept⟩
  · exact ⟨id, (h.platformAdmin heq).mpr hid⟩

theorem OnlyTarget.keeps_tenant (h : OnlyTarget target db db')
    (htarget : TenantAdmin db t target → otherActiveTenantAdmins db t target ≠ 0 ∨ TenantAdmin db' t target)
    (hadmin : ∃ id, TenantAdmin db t id) : ∃ id, TenantAdmin db' t id := by
  obtain ⟨id, hid⟩ := hadmin
  by_cases heq : id = target
  · rw [heq] at hid
    rcases htarget hid with hother | hkept
    · obtain ⟨other, hne, hother⟩ := otherActiveTenantAdmins_ne hother
      exact ⟨other, h.tenantAdmin hne hother⟩
    · exact ⟨target, hkept⟩
  · exact ⟨id, h.tenantAdmin heq hid⟩

/-! ## What a request changes -/

theorem mem_addUser {tenantId userId : Nat} {role : String} {m : TenantMember} :
    m ∈ (db.addUser tenantId userId role).members.rows ↔
      if m.userId = userId ∧ m.tenantId = tenantId then m.role = normalizeTenantRole role
      else m ∈ db.members.rows := by
  have hfind : (db.addUser tenantId userId role).members.find m.key = some m ↔
      m ∈ (db.addUser tenantId userId role).members.rows := by
    rw [Keyed.find_eq_some]
    exact and_iff_left rfl
  have hkey : TenantMember.key ⟨userId, tenantId, normalizeTenantRole role⟩ = m.key ↔
      m.userId = userId ∧ m.tenantId = tenantId := by
    rw [TenantMember.key, TenantMember.key, Prod.mk.injEq]
    exact and_congr eq_comm eq_comm
  rw [← hfind]
  show (Keyed.upsert _ _ _ _ _).find _ = _ ↔ _
  rw [Keyed.find_upsert]
  split
  · rename_i h
    rw [if_pos (hkey.mp h)]
    obtain ⟨huser, htenant⟩ := hkey.mp h
    have hrow : some m = some (⟨userId, tenantId, normalizeTenantRole role⟩ : TenantMember) ↔
        m.role = normalizeTenantRole role := by
      constructor
      · intro h
        rw [Option.some.inj h]
      · intro h
        rw [← huser, ← htenant, ← h]
    rw [← hrow, eq_comm]
    cases hfind : db.members.find m.key with
    | none => rfl
    | some r =>
      have hr := (Keyed.find_eq_some.mp hfind).2
      rw [← hkey.mpr ⟨huser, htenant⟩, TenantMember.key, TenantMember.key, Prod.mk.injEq] at hr
      obtain ⟨hruser, hrtenant⟩ := hr
      dsimp only
      rw [if_pos rfl, TenantMember.setRole, hruser, hrtenant]
  · rename_i h
    rw [if_neg (mt hkey.mpr h), Keyed.find_eq_some]
    exact and_iff_left rfl

theorem addUser_onlyTarget {tenantId userId : Nat} {role : String} :
    OnlyTarget userId db (db.addUser tenantId userId role) where
  permissionSets := rfl
  users _ _ := Iff.rfl
  members m hm := by rw [mem_addUser, if_neg fun h => hm h.1]

theorem removeUser_onlyTarget {tenantId userId : Nat} : OnlyTarget userId db (db.removeUser tenantId userId) where
  permissionSets := rfl
  users _ _ := Iff.rfl
  members m hm := by
    unfold UserDb.removeUser
    rw [Keyed.mem_delete]
    exact and_iff_left (decide_eq_false fun h => hm h.2)

theorem deleteUser_onlyTarget {userId : Nat} : OnlyTarget userId db (db.deleteUser userId) where
  permissionSets := rfl
  users a ha := by
    unfold UserDb.deleteUser
    rw [Table.mem_delete]
    exact and_iff_left (decide_eq_false ha)
  members m hm := by
    unfold UserDb.deleteUser
    rw [Keyed.mem_delete]
    exact and_iff_left (decide_eq_false hm)

theorem mem_setUserTenantAssignments {userId : Nat} {assignments : List TenantAssignment}
    (h : db.setUserTenantAssignments userId assignments = some db') {m : TenantMember} :
    m ∈ db'.members.rows ↔ (m ∈ db.members.rows ∧ m.userId ≠ userId) ∨
      ∃ a ∈ assignments, m = ⟨userId, a.tenantId, normalizeTenantRole a.role⟩ := by
  obtain ⟨members, hmembers, rfl⟩ := Option.map_eq_some_iff.mp h
  rw [Keyed.mem_insertAll hmembers, Keyed.mem_delete, List.mem_map, decide_eq_false_iff_not]
  refine or_congr_right (exists_congr fun a => and_congr_right fun _ => eq_comm)

theorem setUserTenantAssignments_onlyTarget {userId : Nat} {assignments : List TenantAssignment}
    (h : db.setUserTenantAssignments userId assignments = some db') : OnlyTarget userId db db' := by
  have hrows : db'.users = db.users ∧ db'.permissionSets = db.permissionSets := by
    obtain ⟨members, -, rfl⟩ := Option.map_eq_some_iff.mp h
    exact ⟨rfl, rfl⟩
  refine ⟨hrows.2, fun a _ => by rw [hrows.1], fun m hm => ?_⟩
  rw [mem_setUserTenantAssignments h]
  constructor
  · rintro (h | ⟨a, -, rfl⟩)
    · exact h.1
    · exact absurd rfl hm
  · intro h
    exact .inl ⟨h, hm⟩

theorem newTenantRole_granted {data : CreateUserInput} {role : String}
    (h : newTenantRole actor data db = .ok (some role)) : assertGrantableRole db actor role = .ok () := by
  unfold newTenantRole at h
  split at h
  · obtain ⟨_, -, h⟩ := Checks.bind_eq_ok.mp h
    obtain ⟨granted, -, h⟩ := Checks.bind_eq_ok.mp h
    obtain ⟨_, hgrant, h⟩ := Checks.bind_eq_ok.mp h
    rw [← Option.some.inj (Except.ok.inj h)]
    exact hgrant
  · cases Except.ok.inj h

theorem createUserAccount_change {data : CreateUserInput} (h : createUserAccount actor data db = .ok db') :
    OnlyTarget db.users.seq db db' ∧ (∀ a ∈ db'.users.rows, a.id = db.users.seq → a = data.account db.users.seq) ∧
      (data.role = some .admin → actor.isPlatformAdmin = true) ∧
      ∀ m ∈ db'.members.rows, m.userId = db.users.seq → m ∈ db.members.rows ∨
        m.tenantId = actor.tenantId ∧ ∃ role, assertGrantableRole db actor role = .ok () ∧
          m.role = normalizeTenantRole role := by
  unfold createUserAccount at h
  obtain ⟨_, hadmin, h⟩ := Checks.bind_eq_ok.mp h
  obtain ⟨tenantRole, hrole, h⟩ := Checks.bind_eq_ok.mp h
  obtain ⟨_, -, h⟩ := Checks.bind_eq_ok.mp h
  have hadmin : data.role = some .admin → actor.isPlatformAdmin = true := by
    intro hrole
    rw [refuseIf_eq_ok, decide_eq_false_iff_not, not_and, Bool.not_eq_true'] at hadmin
    exact eq_true_of_ne_false (hadmin hrole)
  have hnew : ∀ a : Account, a.id ≠ db.users.seq →
      (a ∈ (db.users.insert data.account data.account_id).rows ↔ a ∈ db.users.rows) := by
    intro a ha
    rw [Table.mem_insert]
    refine or_iff_left ?_
    rintro rfl
    exact ha rfl
  have hself : ∀ a ∈ (db.users.insert data.account data.account_id).rows, a.id = db.users.seq →
      a = data.account db.users.seq := by
    intro a ha hid
    rcases Table.mem_insert.mp ha with ha | ha
    · have := (db.users.bounds a ha).2
      omega
    · exact ha
  cases tenantRole with
  | none =>
    rw [← Except.ok.inj h]
    exact ⟨⟨rfl, hnew, fun _ _ => Iff.rfl⟩, hself, hadmin, fun m hm _ => .inl hm⟩
  | some role =>
    dsimp only at h
    split at h
    · contradiction
    · rw [← Except.ok.inj h]
      have honly := @addUser_onlyTarget { db with users := db.users.insert data.account data.account_id }
        actor.tenantId db.users.seq role
      refine ⟨⟨honly.permissionSets, hnew, honly.members⟩, hself, hadmin, fun m hm huser => ?_⟩
      rw [mem_addUser] at hm
      split at hm
      · rename_i hkey
        exact .inr ⟨hkey.2, role, newTenantRole_granted hrole, hm⟩
      · exact .inl hm

theorem updateUserAccount_change {data : UpdateUserInput} (h : updateUserAccount actor target data db = .ok db') :
    OnlyTarget target db db' ∧ db'.members = db.members ∧
      ∃ a, assertManageableTarget db actor target = .ok a ∧
        (∀ b ∈ db'.users.rows, b.id = target → b = data.apply a) ∧ data.apply a ∈ db'.users.rows ∧
        (data.role.any (· ≠ a.role) = true → actor.isPlatformAdmin = true) ∧
        ((data.role = some .user ∨ data.isActive = some false) → a.role = .admin → a.isActive = true →
          otherActivePlatformAdmins db target ≠ 0) ∧
        (data.isActive = some false → a.isActive = true →
          assertTenantsKeepAnAdmin db actor target (adminTenantsOf db target) = .ok ()) := by
  unfold updateUserAccount at h
  obtain ⟨a, ha, h⟩ := Checks.bind_eq_ok.mp h
  obtain ⟨_, hrole, h⟩ := Checks.bind_eq_ok.mp h
  obtain ⟨_, -, h⟩ := Checks.bind_eq_ok.mp h
  obtain ⟨_, -, h⟩ := Checks.bind_eq_ok.mp h
  obtain ⟨_, -, h⟩ := Checks.bind_eq_ok.mp h
  obtain ⟨_, hlast, h⟩ := Checks.bind_eq_ok.mp h
  obtain ⟨_, htenants, h⟩ := Checks.bind_eq_ok.mp h
  obtain ⟨_, -, h⟩ := Checks.bind_eq_ok.mp h
  obtain rfl := Except.ok.inj h
  have hfind := Table.find_eq_some.mp (assertManageableTarget_find ha)
  rw [refuseIf_eq_ok, decide_eq_false_iff_not] at hrole hlast
  have hmem : ∀ b : Account, b ∈ (db.users.update (·.id = target) data.apply data.apply_id).rows ↔
      ∃ c ∈ db.users.rows, (if c.id = target then data.apply c else c) = b := by
    intro b
    simp only [Table.mem_update, decide_eq_true_eq]
  refine ⟨⟨rfl, fun b hb => ?_, fun _ _ => Iff.rfl⟩, rfl, a, ha, fun b hb hid => ?_, ?_, fun h => ?_,
    fun h hadmin hactive hother => hlast ⟨h, hadmin, hactive, hother⟩, fun h hactive => ?_⟩
  · rw [hmem]
    constructor
    · rintro ⟨c, hc, rfl⟩
      split at hb
      · rename_i hid
        exact absurd hid hb
      · rename_i hid
        rwa [if_neg hid]
    · intro hb'
      exact ⟨b, hb', if_neg hb⟩
  · obtain ⟨c, hc, rfl⟩ := (hmem b).mp hb
    split at hid
    · rename_i hc'
      rw [if_pos hc', Table.eq_of_key hc hfind.1 (hc'.trans hfind.2.symm)]
    · rename_i hc'
      exact absurd hid hc'
  · exact (hmem _).mpr ⟨a, hfind.1, if_pos hfind.2⟩
  · rw [not_and, Bool.not_eq_true'] at hrole
    exact eq_true_of_ne_false (hrole h)
  · rwa [if_pos ⟨h, hactive⟩] at htenants

theorem deleteUserAccount_change (h : deleteUserAccount actor target db = .ok db') :
    db' = db.deleteUser target ∧ ∃ a, assertManageableTarget db actor target = .ok a ∧
      (a.role = .admin → otherActivePlatformAdmins db target ≠ 0) ∧
      (a.isActive = true → assertTenantsKeepAnAdmin db actor target (adminTenantsOf db target) = .ok ()) := by
  unfold deleteUserAccount at h
  obtain ⟨_, -, h⟩ := Checks.bind_eq_ok.mp h
  obtain ⟨a, ha, h⟩ := Checks.bind_eq_ok.mp h
  obtain ⟨_, -, h⟩ := Checks.bind_eq_ok.mp h
  obtain ⟨_, hlast, h⟩ := Checks.bind_eq_ok.mp h
  obtain ⟨_, htenants, h⟩ := Checks.bind_eq_ok.mp h
  rw [refuseIf_eq_ok, decide_eq_false_iff_not] at hlast
  refine ⟨(Except.ok.inj h).symm, a, ha, fun hadmin hother => hlast ⟨hadmin, hother⟩, fun hactive => ?_⟩
  rwa [if_pos hactive] at htenants

theorem resolveRole_known {raw role : String} (h : resolveRole db raw = .ok role) :
    role = normalizeTenantRole raw ∧ (capsOfRole db role).isSome := by
  unfold resolveRole at h
  dsimp only at h
  split at h
  · contradiction
  · split at h
    · rename_i hadmin
      rw [← Except.ok.inj h, capsOfRole, if_pos hadmin]
      exact ⟨rfl, rfl⟩
    · rename_i hadmin
      split at h
      · contradiction
      · rename_i hknown
        rw [Bool.or_eq_true, not_or, Bool.not_eq_true, Bool.not_eq_true, Option.isNone_eq_false_iff] at hknown
        rw [← Except.ok.inj h, capsOfRole, if_neg hadmin, Option.isSome_map]
        exact ⟨rfl, hknown.2⟩

theorem mem_resolveRoles {assignments rows : List TenantAssignment} (h : resolveRoles db assignments = .ok rows)
    {r : TenantAssignment} (hr : r ∈ rows) :
    (capsOfRole db r.role).isSome ∧
      ∃ a ∈ assignments, r.tenantId = a.tenantId ∧ r.role = normalizeTenantRole a.role := by
  induction assignments generalizing rows with
  | nil =>
    obtain rfl := Except.ok.inj h
    contradiction
  | cons a rest ih =>
    rw [resolveRoles] at h
    obtain ⟨role, hrole, h⟩ := Checks.bind_eq_ok.mp h
    obtain ⟨tail, htail, h⟩ := Checks.bind_eq_ok.mp h
    obtain rfl := Except.ok.inj h
    rcases List.mem_cons.mp hr with rfl | hr
    · obtain ⟨hrole, hknown⟩ := resolveRole_known hrole
      exact ⟨hknown, a, List.mem_cons_self, rfl, hrole⟩
    · obtain ⟨hknown, b, hb, hrb⟩ := ih htail hr
      exact ⟨hknown, b, List.mem_cons_of_mem a hb, hrb⟩

theorem setUserTenants_change {inputs : Option (List AssignmentInput)}
    (h : setUserTenants actor target inputs db = .ok db') :
    ∃ resolved rows, resolveTenantAssignments db actor target inputs = .ok resolved ∧
      resolveRoles db resolved = .ok rows ∧ db.setUserTenantAssignments target rows = some db' ∧
      assertTenantsKeepAnAdmin db actor target ((adminTenantsOf db target).filter
        (· ∉ (rows.filter (·.role = tenantRoleAdmin)).map (·.tenantId))) = .ok () := by
  unfold setUserTenants at h
  obtain ⟨resolved, hresolved, h⟩ := Checks.bind_eq_ok.mp h
  obtain ⟨_, -, h⟩ := Checks.bind_eq_ok.mp h
  obtain ⟨rows, hrows, h⟩ := Checks.bind_eq_ok.mp h
  obtain ⟨_, htenants, h⟩ := Checks.bind_eq_ok.mp h
  obtain ⟨_, -, h⟩ := Checks.bind_eq_ok.mp h
  exact ⟨resolved, rows, hresolved, hrows, need_eq_ok.mp h, htenants⟩

theorem setTenantMembership_change {role : Option String} (h : setTenantMembership actor target role db = .ok db') :
    db' = role.elim (db.removeUser actor.tenantId target) (db.addUser actor.tenantId target) ∧
      ∃ current, assertMembershipChange db actor target role = .ok current ∧
        (current = some tenantRoleAdmin → role ≠ some tenantRoleAdmin →
          assertTenantsKeepAnAdmin db actor target [actor.tenantId] = .ok ()) := by
  unfold setTenantMembership at h
  obtain ⟨_, -, h⟩ := Checks.bind_eq_ok.mp h
  obtain ⟨current, hcurrent, h⟩ := Checks.bind_eq_ok.mp h
  obtain ⟨_, htenants, h⟩ := Checks.bind_eq_ok.mp h
  refine ⟨(Except.ok.inj h).symm, current, hcurrent, fun hadmin hrole => ?_⟩
  rwa [if_pos ⟨hadmin, hrole⟩] at htenants

/-! ## The platform -/

theorem perform_keeps_platform {a : UserAction} (h : a.perform actor db = .ok db')
    (hadmin : ∃ id, PlatformAdmin db id) : ∃ id, PlatformAdmin db' id := by
  cases a with
  | create data =>
    obtain ⟨honly, -⟩ := createUserAccount_change h
    refine honly.keeps_platform (fun hself => ?_) hadmin
    obtain ⟨a, ha, hid, -⟩ := hself
    have := (db.users.bounds a ha).2
    omega
  | update target data =>
    obtain ⟨honly, -, a, ha, -, hnew, -, hlast, -⟩ := updateUserAccount_change h
    have hfind := Table.find_eq_some.mp (assertManageableTarget_find ha)
    refine honly.keeps_platform (fun hself => ?_) hadmin
    obtain ⟨b, hb, hid, hrole, hactive⟩ := hself
    obtain rfl := Table.eq_of_key hb hfind.1 (hid.trans hfind.2.symm)
    by_cases hchange : data.role = some .user ∨ data.isActive = some false
    · exact .inl (hlast hchange hrole hactive)
    · obtain ⟨hrole', hactive'⟩ := not_or.mp hchange
      refine .inr ⟨data.apply b, hnew, hid, ?_, ?_⟩
      · unfold UpdateUserInput.apply
        cases hdata : data.role with
        | none => exact hrole
        | some role =>
          cases role with
          | admin => rfl
          | user => exact absurd hdata hrole'
      · unfold UpdateUserInput.apply
        cases hdata : data.isActive with
        | none => exact hactive
        | some active =>
          cases active with
          | true => rfl
          | false => exact absurd hdata hactive'
  | delete target =>
    obtain ⟨rfl, a, ha, hlast, -⟩ := deleteUserAccount_change h
    have hfind := Table.find_eq_some.mp (assertManageableTarget_find ha)
    refine deleteUser_onlyTarget.keeps_platform (fun hself => ?_) hadmin
    obtain ⟨b, hb, hid, hrole, -⟩ := hself
    obtain rfl := Table.eq_of_key hb hfind.1 (hid.trans hfind.2.symm)
    exact .inl (hlast hrole)
  | setTenants target inputs =>
    obtain ⟨resolved, rows, -, -, hset, -⟩ := setUserTenants_change h
    obtain ⟨members, -, rfl⟩ := Option.map_eq_some_iff.mp hset
    exact hadmin
  | setMembership target role =>
    obtain ⟨rfl, -⟩ := setTenantMembership_change h
    cases role with
    | none => exact hadmin
    | some role => exact hadmin

/-! ## Managers that are no platform admins -/

/-- What such managers cannot do: touch a reserved account or its memberships, give a capability that nobody held in
the tenant, or take the last administrator of one. -/
structure Delegated (db db' : UserDb) : Prop where
  permissionSets : db'.permissionSets = db.permissionSets
  reserved : ∀ a : Account, a.Reserved → (a ∈ db'.users.rows ↔ a ∈ db.users.rows)
  members : ∀ a ∈ db.users.rows, a.Reserved → ∀ m : TenantMember, m.userId = a.id →
    (m ∈ db'.members.rows ↔ m ∈ db.members.rows)
  held : ∀ t cap, Held db' t cap → Held db t cap
  admins : ∀ t, (∃ id, TenantAdmin db t id) → ∃ id, TenantAdmin db' t id

theorem Delegated.refl (db : UserDb) : Delegated db db :=
  ⟨rfl, fun _ _ => Iff.rfl, fun _ _ _ _ _ => Iff.rfl, fun _ _ h => h, fun _ h => h⟩

theorem Delegated.trans {db₁ db₂ db₃ : UserDb} (h : Delegated db₁ db₂) (h' : Delegated db₂ db₃) :
    Delegated db₁ db₃ where
  permissionSets := h'.permissionSets.trans h.permissionSets
  reserved a ha := (h'.reserved a ha).trans (h.reserved a ha)
  members a hmem ha m hm :=
    (h'.members a ((h.reserved a ha).mpr hmem) ha m hm).trans (h.members a hmem ha m hm)
  held t cap hcap := h.held t cap (h'.held t cap hcap)
  admins t hadmin := h'.admins t (h.admins t hadmin)

theorem roleHas_congr (h : db'.permissionSets = db.permissionSets) (role cap : String) :
    RoleHas db' role cap ↔ RoleHas db role cap := by
  unfold RoleHas capsOfRole
  rw [h]

theorem OnlyTarget.delegated (h : OnlyTarget target db db')
    (hreserved : ∀ a : Account, a.id = target → a ∈ db.users.rows ∨ a ∈ db'.users.rows → ¬a.Reserved)
    (hheld : ∀ m ∈ db'.members.rows, m.userId = target → ∀ cap, RoleHas db (normaliseTenantRole m.role) cap →
      Held db m.tenantId cap)
    (hadmins : ∀ t, TenantAdmin db t target → otherActiveTenantAdmins db t target ≠ 0 ∨ TenantAdmin db' t target) :
    Delegated db db' where
  permissionSets := h.permissionSets
  reserved a ha := by
    by_cases hid : a.id = target
    · exact iff_of_false (fun hmem => hreserved a hid (.inr hmem) ha) fun hmem => hreserved a hid (.inl hmem) ha
    · exact h.users a hid
  members a hmem ha m hm := h.members m fun huser => hreserved a (hm.symm.trans huser) (.inl hmem) ha
  held t cap := by
    rintro ⟨m, hm, rfl, hcap⟩
    rw [roleHas_congr h.permissionSets] at hcap
    by_cases huser : m.userId = target
    · exact hheld m hm huser cap hcap
    · exact ⟨m, (h.members m huser).mp hm, rfl, hcap⟩
  admins t := h.keeps_tenant (hadmins t)

theorem assertTenantsKeepAnAdmin_ne {leaving : List Nat} (hactor : actor.isPlatformAdmin = false)
    (h : assertTenantsKeepAnAdmin db actor target leaving = .ok ()) (ht : t ∈ leaving) :
    otherActiveTenantAdmins db t target ≠ 0 := by
  unfold assertTenantsKeepAnAdmin at h
  rw [refuseIf_eq_ok, hactor, Bool.not_false, Bool.true_and, List.any_eq_false] at h
  intro hzero
  exact h t ht (decide_eq_true hzero)

theorem TenantAdmin.mem_adminTenantsOf (h : TenantAdmin db t target) : t ∈ adminTenantsOf db target := by
  obtain ⟨⟨m, hm, huser, rfl, hrole⟩, -⟩ := h
  exact List.mem_map.mpr ⟨m, List.mem_filter.mpr ⟨hm, decide_eq_true ⟨huser, hrole⟩⟩, rfl⟩

theorem TenantAdmin.isActive {a : Account} (h : TenantAdmin db t target) (ha : db.users.find target = some a) :
    a.isActive = true := by
  obtain ⟨-, b, hb, hid, hactive⟩ := h
  have hfind := Table.find_eq_some.mp ha
  rwa [← Table.eq_of_key hb hfind.1 (hid.trans hfind.2.symm)]

theorem held_self {m : TenantMember} (hm : m ∈ db.members.rows) (cap : String)
    (hcap : RoleHas db (normaliseTenantRole m.role) cap) : Held db m.tenantId cap := ⟨m, hm, rfl, hcap⟩

theorem normalizeTenantRole_normalise (role : String) :
    normalizeTenantRole (normaliseTenantRole role) = normaliseTenantRole role := by
  have hidem : ∀ r, normalizeTenantRole (normalizeTenantRole r) = normalizeTenantRole r := by
    intro r
    by_cases h : r = "member"
    · rw [h]
      rfl
    · have hr : normalizeTenantRole r = r := if_neg h
      rw [hr, hr]
  rw [normaliseTenantRole]
  split
  · rfl
  · exact hidem _

theorem create_delegated {data : CreateUserInput} (hactor : actor.isPlatformAdmin = false)
    (h : createUserAccount actor data db = .ok db') : Delegated db db' := by
  obtain ⟨honly, hself, hadmin, hmembers⟩ := createUserAccount_change h
  have hfresh : ∀ a ∈ db.users.rows, a.id ≠ db.users.seq := by
    intro a ha
    have := (db.users.bounds a ha).2
    omega
  refine honly.delegated (fun a hid hmem => ?_) (fun m hm huser cap hcap => ?_) fun t hself => ?_
  · rcases hmem with ha | ha
    · exact absurd hid (hfresh a ha)
    · rw [hself a ha hid]
      rintro (hrole | hforeign)
      · cases hdata : data.role with
        | none =>
          rw [CreateUserInput.account, hdata] at hrole
          contradiction
        | some role =>
          rw [CreateUserInput.account, hdata] at hrole
          rw [hadmin (hdata.trans (congrArg some hrole))] at hactor
          contradiction
      · contradiction
  · rcases hmembers m hm huser with hm | ⟨htenant, role, hgrant, hrole⟩
    · exact held_self hm cap hcap
    · rw [hrole] at hcap
      rw [htenant]
      exact assertGrantableRole_held hactor hgrant hcap
  · obtain ⟨-, a, ha, hid, -⟩ := hself
    exact absurd hid (hfresh a ha)

theorem update_delegated {data : UpdateUserInput} (hactor : actor.isPlatformAdmin = false)
    (h : updateUserAccount actor target data db = .ok db') : Delegated db db' := by
  obtain ⟨honly, hmembers, a, ha, hself, hnew, hrole, -, htenants⟩ := updateUserAccount_change h
  have hfind := assertManageableTarget_find ha
  have hreserved := assertManageableTarget_delegated hactor ha
  obtain ⟨harow, haid⟩ := Table.find_eq_some.mp hfind
  have hsame : (data.apply a).role = a.role := by
    unfold UpdateUserInput.apply
    cases hdata : data.role with
    | none => rfl
    | some role =>
      by_contra hne
      rw [hdata] at hrole
      rw [hrole (decide_eq_true hne)] at hactor
      contradiction
  refine honly.delegated (fun b hid hmem => ?_) (fun m hm _ cap hcap => ?_) fun t hadmin => ?_
  · rcases hmem with hb | hb
    · rwa [Table.eq_of_key hb harow (hid.trans haid.symm)]
    · rw [hself b hb hid]
      rintro (hrole | hforeign)
      · exact hreserved (.inl (hsame.symm.trans hrole))
      · exact hreserved (.inr hforeign)
  · rw [hmembers] at hm
    exact held_self hm cap hcap
  · have hactive := hadmin.isActive hfind
    by_cases hdata : data.isActive = some false
    · exact .inl (assertTenantsKeepAnAdmin_ne hactor (htenants hdata hactive) hadmin.mem_adminTenantsOf)
    · obtain ⟨hmember, -⟩ := hadmin
      rw [← hmembers] at hmember
      refine .inr ⟨hmember, data.apply a, hnew, haid, ?_⟩
      unfold UpdateUserInput.apply
      cases hdata' : data.isActive with
      | none => exact hactive
      | some active =>
        cases active with
        | true => rfl
        | false => exact absurd hdata' hdata

theorem delete_delegated (hactor : actor.isPlatformAdmin = false)
    (h : deleteUserAccount actor target db = .ok db') : Delegated db db' := by
  obtain ⟨rfl, a, ha, -, htenants⟩ := deleteUserAccount_change h
  have hfind := assertManageableTarget_find ha
  have hreserved := assertManageableTarget_delegated hactor ha
  obtain ⟨harow, haid⟩ := Table.find_eq_some.mp hfind
  refine deleteUser_onlyTarget.delegated (fun b hid hmem => ?_) (fun m hm huser cap _ => ?_) fun t hadmin => ?_
  · have hb : b ∈ db.users.rows := by
      rcases hmem with hb | hb
      · exact hb
      · exact (Table.mem_delete.mp hb).1
    rwa [Table.eq_of_key hb harow (hid.trans haid.symm)]
  · exact absurd huser (of_decide_eq_false (Keyed.mem_delete.mp hm).2)
  · exact .inl (assertTenantsKeepAnAdmin_ne hactor (htenants (hadmin.isActive hfind)) hadmin.mem_adminTenantsOf)

theorem setTenants_delegated {inputs : Option (List AssignmentInput)} (hactor : actor.isPlatformAdmin = false)
    (h : setUserTenants actor target inputs db = .ok db') : Delegated db db' := by
  obtain ⟨resolved, rows, hresolved, hrows, hset, htenants⟩ := setUserTenants_change h
  obtain ⟨⟨a, ha⟩, hscope⟩ := resolveTenantAssignments_delegated hactor hresolved
  have hreserved := assertManageableTarget_delegated hactor ha
  obtain ⟨harow, haid⟩ := Table.find_eq_some.mp (assertManageableTarget_find ha)
  have husers : db'.users = db.users := by
    obtain ⟨members, -, rfl⟩ := Option.map_eq_some_iff.mp hset
    rfl
  refine (setUserTenantAssignments_onlyTarget hset).delegated (fun b hid hmem => ?_)
    (fun m hm huser cap hcap => ?_) fun t hadmin => ?_
  · rw [husers, or_self] at hmem
    rwa [Table.eq_of_key hmem harow (hid.trans haid.symm)]
  · rcases (mem_setUserTenantAssignments hset).mp hm with ⟨-, hother⟩ | ⟨r, hr, rfl⟩
    · exact absurd huser hother
    · obtain ⟨hknown, b, hb, htenant, hrole⟩ := mem_resolveRoles hrows hr
      obtain ⟨hnormal, hnormalise⟩ := normalise_known hknown
      dsimp only at hcap ⊢
      rw [htenant]
      rcases hscope b hb with ⟨hown, hgrant⟩ | ⟨m, hm, -, hmt, hmr⟩
      · rw [hnormal, hrole] at hcap
        rw [hown]
        exact assertGrantableRole_held hactor hgrant hcap
      · -- the role it has already, which is read as before
        have hsame : r.role = normaliseTenantRole m.role := by
          rw [hrole, ← hmr, normalizeTenantRole_normalise]
        rw [hnormal, hnormalise, hsame] at hcap
        rw [← hmt]
        exact held_self hm cap hcap
  · by_cases hafter : t ∈ (rows.filter (·.role = tenantRoleAdmin)).map (·.tenantId)
    · obtain ⟨-, hactive⟩ := hadmin
      rw [← husers] at hactive
      obtain ⟨r, hr, rfl⟩ := List.mem_map.mp hafter
      obtain ⟨hr, hrole⟩ := List.mem_filter.mp hr
      rw [decide_eq_true_eq] at hrole
      refine .inr ⟨⟨_, (mem_setUserTenantAssignments hset).mpr (.inr ⟨r, hr, rfl⟩), rfl, rfl, ?_⟩, hactive⟩
      dsimp only
      rw [hrole]
      decide
    · refine .inl (assertTenantsKeepAnAdmin_ne hactor htenants ?_)
      exact List.mem_filter.mpr ⟨hadmin.mem_adminTenantsOf, decide_eq_true hafter⟩

theorem setMembership_delegated {role : Option String} (hactor : actor.isPlatformAdmin = false)
    (h : setTenantMembership actor target role db = .ok db') : Delegated db db' := by
  obtain ⟨hdb, current, hchange, htenants⟩ := setTenantMembership_change h
  obtain ⟨⟨a, ha⟩, hgrant, hcurrent⟩ := assertMembershipChange_delegated hchange
  have hreserved := assertManageableTarget_delegated hactor ha
  obtain ⟨harow, haid⟩ := Table.find_eq_some.mp (assertManageableTarget_find ha)
  have husers : db'.users = db.users := by
    rw [hdb]
    cases role with
    | none => rfl
    | some role => rfl
  have honly : OnlyTarget target db db' := by
    rw [hdb]
    cases role with
    | none => exact removeUser_onlyTarget
    | some role => exact addUser_onlyTarget
  refine honly.delegated (fun b hid hmem => ?_) (fun m hm _ cap hcap => ?_) fun t hadmin => ?_
  · rw [husers, or_self] at hmem
    rwa [Table.eq_of_key hmem harow (hid.trans haid.symm)]
  · rw [hdb] at hm
    cases role with
    | none => exact held_self (Keyed.mem_delete.mp hm).1 cap hcap
    | some role =>
      rw [Option.elim_some, mem_addUser] at hm
      split at hm
      · rename_i hkey
        rw [hm] at hcap
        rw [hkey.2]
        exact assertGrantableRole_held hactor (hgrant role rfl) hcap
      · exact held_self hm cap hcap
  · obtain ⟨⟨m, hm, huser, rfl, hrole⟩, hactive⟩ := id hadmin
    rw [← husers] at hactive
    by_cases htenant : m.tenantId = actor.tenantId
    · by_cases hadmin' : role = some tenantRoleAdmin
      · -- it is given the role that it has
        refine .inr ⟨⟨m, ?_, huser, rfl, hrole⟩, hactive⟩
        rw [hdb, hadmin', Option.elim_some, mem_addUser, if_pos ⟨huser, htenant⟩, hrole]
        decide
      · have hadminNow : current = some tenantRoleAdmin := by
          have hfind : db.members.find (target, actor.tenantId) = some m :=
            Keyed.find_eq_some.mpr ⟨hm, by rw [TenantMember.key, huser, htenant]⟩
          rw [hcurrent, membershipRole, hfind, Option.map_some, hrole]
          exact congrArg some (@normalise_known db tenantRoleAdmin rfl).2
        refine .inl ?_
        rw [htenant]
        exact assertTenantsKeepAnAdmin_ne hactor (htenants hadminNow hadmin') (List.mem_singleton.mpr rfl)
    · refine .inr ⟨⟨m, ?_, huser, rfl, hrole⟩, hactive⟩
      rw [hdb]
      cases role with
      | none => exact Keyed.mem_delete.mpr ⟨hm, decide_eq_false fun h => htenant h.1⟩
      | some role => rwa [Option.elim_some, mem_addUser, if_neg fun h => htenant h.2]

theorem perform_delegated {a : UserAction} (hactor : actor.isPlatformAdmin = false) (h : a.perform actor db = .ok db') :
    Delegated db db' := by
  cases a with
  | create data => exact create_delegated hactor h
  | update target data => exact update_delegated hactor h
  | delete target => exact delete_delegated hactor h
  | setTenants target inputs => exact setTenants_delegated hactor h
  | setMembership target role => exact setMembership_delegated hactor h

end administrators

/-! ## Runs -/

/-- A run never takes the last active platform administrator, whoever asks. -/
theorem platform_keeps_an_admin {db db' : UserDb} {requests : List (ScopeActor × UserAction)}
    (hadmin : ∃ id, PlatformAdmin db id) (h : run userStep db requests = some db') : ∃ id, PlatformAdmin db' id := by
  have hstep : ∀ db request db', (∃ id, PlatformAdmin db id) → userStep db request = some db' →
      ∃ id, PlatformAdmin db' id := by
    intro db request db' hadmin hstep
    unfold userStep at hstep
    split at hstep
    · rename_i next hnext
      rw [← Option.some.inj hstep]
      exact perform_keeps_platform hnext hadmin
    · rwa [← Option.some.inj hstep]
  exact run_preserves (P := fun db => ∃ id, PlatformAdmin db id) hstep hadmin h

/-- The first account administers the platform, the second one the tenant, whose one permission set lets its holders
manage users. -/
def sampleUsers : UserDb where
  users := ⟨[⟨1, "root", .admin, true, none⟩, ⟨2, "manager", .user, true, none⟩], 3, by decide, Table.three_pos, by decide⟩
  members := ⟨[⟨2, 1, "admin"⟩], by decide⟩
  tenants := [1]
  permissionSets slug := if slug = "ops" then some ["users.manage", "ips.view"] else none
  slugs slug h := by
    split at h
    · rename_i hops
      rw [hops]
      exact ⟨by decide, by decide⟩
    · contradiction

/-- The tenant administrator makes two accounts, the second of which tries to take the first one's place; the platform
admin tries to leave, and does so after another one is there. -/
def sampleRequests : List (ScopeActor × UserAction) :=
  [(⟨2, false, 1⟩, .create ⟨"ops", none, some "ops"⟩), (⟨2, false, 1⟩, .create ⟨"guest", none, some "ops"⟩),
    (⟨3, false, 1⟩, .setMembership 4 (some "admin")), (⟨3, false, 1⟩, .delete 2),
    (⟨2, false, 1⟩, .setTenants 4 (some [⟨some 1, some "admin"⟩])), (⟨1, true, 1⟩, .update 1 ⟨none, none, some false⟩),
    (⟨1, true, 1⟩, .update 4 ⟨none, some .admin, none⟩), (⟨1, true, 1⟩, .update 1 ⟨none, some .user, none⟩)]

theorem platform_keeps_an_admin_sample :
    ∃ db', run userStep sampleUsers sampleRequests = some db' ∧ ∃ id, PlatformAdmin db' id := by
  have hrun : (run userStep sampleUsers sampleRequests).isSome = true := by decide
  obtain ⟨db', hdb'⟩ := Option.isSome_iff_exists.mp hrun
  exact ⟨db', hdb', platform_keeps_an_admin ⟨1, _, List.mem_cons_self, rfl, rfl, rfl⟩ hdb'⟩

/-- A run of managers that are no platform admins. -/
theorem delegated_run {db db' : UserDb} {requests : List (ScopeActor × UserAction)}
    (hactors : ∀ r ∈ requests, r.1.isPlatformAdmin = false) (h : run userStep db requests = some db') :
    Delegated db db' := by
  have hstep : ∀ next (request : ScopeActor × UserAction) db', Delegated db next → request.1.isPlatformAdmin = false →
      userStep next request = some db' → Delegated db db' := by
    intro next request db' hnext hactor hstep
    unfold userStep at hstep
    split at hstep
    · rename_i last hlast
      rw [← Option.some.inj hstep]
      exact hnext.trans (perform_delegated hactor hlast)
    · rwa [← Option.some.inj hstep]
  exact run_invariant hstep (Delegated.refl db) (stepsMeet_of_mem fun r hr _ => hactors r hr) h

theorem delegated_run_sample :
    ∃ db', run userStep sampleUsers (sampleRequests.take 5) = some db' ∧ Delegated sampleUsers db' := by
  have hrun : (run userStep sampleUsers (sampleRequests.take 5)).isSome = true := by decide
  obtain ⟨db', hdb'⟩ := Option.isSome_iff_exists.mp hrun
  exact ⟨db', hdb', delegated_run (by decide) hdb'⟩

end Obliguard.Server

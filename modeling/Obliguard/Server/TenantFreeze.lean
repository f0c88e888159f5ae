import Obliguard.Lib.AsyncCache
import Obliguard.Server.UpdatePolicy
import Obliguard.Server.UpdateRollout

/-!
# The freeze of a tenant

`setTenantUpdatePolicy(t, 'off')` beside heartbeats. The tenant policies are cached for 15 s; the call
drops the cache after its write, but a lookup that read the table before the write still stores what
it read, and the heartbeats of the next 15 s are served it. `tenant_frozen` is about the runs in which
no such lookup is under way when the cache is dropped; `tenant_not_frozen` is a run in which one is.

The rest of a heartbeat, from the device that `handlePush` loaded, is the one of `updateStep`.
-/

namespace Obliguard.Server

open Runs

/-! ## The machine -/

def updPolicyCacheTtlMs : Int := 15000

/-- A failed lookup is cached briefly. -/
def updPolicyFailureTtlMs : Int := 5000

/-- A cached map, `none` for a failed lookup, of some age. -/
def freshPolicies {ν : Type} (map : Option ν) (age : Int) : Bool :=
  decide (age < if map.isNone then updPolicyFailureTtlMs else updPolicyCacheTtlMs)

/-- `loadTenantUpdatePolicies`, over the column `agent_update_policy` of each tenant. -/
def loadTenantUpdatePolicies (tenants : Registry (Option AgentUpdatePolicy)) : TenantPolicies :=
  tenants.entries.filterMap fun e => e.2.map fun policy => (e.1, policy)

/-- A call of `setTenantUpdatePolicy`, before its next statement. -/
inductive PolicyCall
  /-- `getTenantUpdatePolicy`. -/
  | reading (tenantId : Nat) (policy : Option AgentUpdatePolicy)
  | updating (tenantId : Nat) (policy : Option AgentUpdatePolicy)
  /-- The row is written; before `invalidateAgentUpdatePolicyCache`. -/
  | invalidating (tenantId : Nat) (policy : Option AgentUpdatePolicy)
  | clearing (tenantId : Nat)
  | plucking (tenantId : Nat)
  | cancelling (tenantId : Nat) (ids : List Nat)
deriving DecidableEq

/-- A heartbeat up to the device that `handlePush` goes on with. -/
inductive PolicyBeat
  | arrived (deviceId : Nat) (agentVersion : List Char)
  /-- `getDeviceByUuid` has read the row. -/
  | known (deviceId : Nat) (agentVersion : List Char) (row : UpdateDevice)
      (settings : Option AgentUpdatePolicy × Option Nat)
  /-- `loadHydrationCtx`: each part, once it is there. -/
  | hydrating (deviceId : Nat) (agentVersion : List Char) (row : UpdateDevice)
      (settings : Option AgentUpdatePolicy × Option Nat)
      (globalPolicy : Option (Option AgentUpdatePolicy)) (chains : Option (Option GroupPolicyChains))
      (tenants : Option (Option TenantPolicies))
  /-- The rest of the heartbeat is in `update`. -/
  | entered (tenantId : Nat)

/-- A heartbeat that is answered with a `latestVersion`. -/
structure PolicyOffer where
  beat : Nat
  tenantId : Nat
  /-- The heartbeat started after a call that froze the tenant had returned, and the stored policy has
  stayed `off` since the write of that call. -/
  frozen : Bool
deriving DecidableEq

structure PolicyState where
  update : UpdateServer
  /-- The own policy and the group of each device. -/
  settings : Registry (Option AgentUpdatePolicy × Option Nat)
  globalPolicy : Option AgentUpdatePolicy
  /-- What the query of `loadGroupUpdatePolicyChains` finds. -/
  chains : GroupPolicyChains
  /-- `tenants.agent_update_policy`. -/
  tenants : Registry (Option AgentUpdatePolicy)
  tenantCache : AsyncCache Unit (Option TenantPolicies)
  chainCache : AsyncCache Unit (Option GroupPolicyChains)
  calls : Registry PolicyCall
  beats : Registry PolicyBeat
  /-- For each call, its tenant, if the call has stored `off` and `off` is still stored. -/
  holds : Nat → List Nat
  /-- The tenants frozen by a call that has returned. -/
  frozen : List Nat
  /-- For each heartbeat, the tenants that were frozen when it started and still are. -/
  marks : Nat → List Nat
  offers : List PolicyOffer

/-- A server that just started. -/
def PolicyState.init (update : UpdateServer) : PolicyState :=
  ⟨update, .empty, none, [], .empty, .empty, .empty, .empty, .empty, fun _ => [], [], fun _ => [], []⟩

/-- A tenant with its policy, or without a row. -/
def writeRow (tenants : Registry (Option AgentUpdatePolicy)) (tenantId : Nat) :
    Option (Option AgentUpdatePolicy) → Registry (Option AgentUpdatePolicy)
  | some policy => tenants.put tenantId policy
  | none => tenants.erase tenantId

namespace PolicyState

variable (s : PolicyState)

/-- The policy of a tenant is written. -/
def writeTenant (tenantId : Nat) (row : Option (Option AgentUpdatePolicy)) : PolicyState :=
  let tenants := writeRow s.tenants tenantId row
  if row = some (some .off) then { s with tenants := tenants }
  else { s with
    tenants := tenants
    holds := fun p => (s.holds p).filter (· ≠ tenantId)
    frozen := s.frozen.filter (· ≠ tenantId)
    marks := fun n => (s.marks n).filter (· ≠ tenantId) }

/-- `invalidateAgentUpdatePolicyCache`. -/
def invalidate : PolicyState :=
  { s with tenantCache := s.tenantCache.drop fun _ => true, chainCache := s.chainCache.drop fun _ => true }

/-- The caches are looked up by the caller with the number; a load starts where there is no fresh
entry. -/
def ask (n : Nat) : PolicyState :=
  let now := s.update.clock
  { s with
    tenantCache := if (s.tenantCache.lookup freshPolicies () now).isSome then s.tenantCache
      else s.tenantCache.start n ()
    chainCache := if (s.chainCache.lookup freshPolicies () now).isSome then s.chainCache
      else s.chainCache.start n () }

/-- The number is not in use. -/
def unused (n : Nat) : Bool :=
  (s.beats.get n).isNone && (s.update.beats.get n).isNone && (s.tenantCache.loads.get n).isNone &&
    (s.chainCache.loads.get n).isNone

/-- A call ends. -/
def endCall (p : Nat) : PolicyState :=
  { s with calls := s.calls.erase p, holds := fun q => if q = p then [] else s.holds q }

/-- A call that dropped the requests of its tenant returns. -/
def returnCall (p tenantId : Nat) : PolicyState :=
  { s.endCall p with frozen := if tenantId ∈ s.holds p then tenantId :: s.frozen else s.frozen }

end PolicyState

inductive PolicyAction
  /-- Other code of the update server. -/
  | update (a : UpdateAction)
  | configure (settings : Registry (Option AgentUpdatePolicy × Option Nat))
      (globalPolicy : Option AgentUpdatePolicy) (chains : GroupPolicyChains)
  /-- Other code writes a tenant, `none` where it deletes it. -/
  | writeTenant (tenantId : Nat) (row : Option (Option AgentUpdatePolicy))
  /-- A group policy is edited, or an import. -/
  | invalidate
  /-- Any other lookup of the two caches, such as the one of the first `getDeviceByUuid`. -/
  | lookup (n : Nat)
  | readTenants (n : Nat) (failed : Bool)
  | storeTenants (n : Nat)
  | readChains (n : Nat) (failed : Bool)
  | storeChains (n : Nat)
  | setPolicy (p tenantId : Nat) (policy : Option AgentUpdatePolicy)
  | callNext (p : Nat)
  /-- The next statement of a call meets a database error. -/
  | callFail (p : Nat)
  | beat (n deviceId : Nat) (agentVersion : List Char)
  | readRow (n : Nat)
  | ask (n : Nat)
  | readGlobal (n : Nat)
  /-- `handlePush` goes on with the device; `closed` if `reconcileUpdateRequest` closed its request. -/
  | enter (n : Nat) (closed : Bool)
  /-- It returns early. -/
  | dropBeat (n : Nat)

/-- The next statement of `setTenantUpdatePolicy`. -/
def callNext (s : PolicyState) (p : Nat) : PolicyCall → PolicyState
  | .reading t policy => { s with calls := s.calls.put p (.updating t policy) }
  | .updating t policy =>
    -- no row: the call returns null
    if (s.tenants.get t).isNone then s.endCall p
    else
      let s' := s.writeTenant t (some policy)
      { s' with
        calls := s.calls.put p (.invalidating t policy)
        holds := fun q => if q = p then (if policy = some .off then [t] else []) else s'.holds q }
  | .invalidating t policy =>
    let s' := s.invalidate
    if policy = some .off then { s' with calls := s.calls.put p (.clearing t) } else s'.endCall p
  | .clearing t => { s with
      update := s.update.updateDevices (fun _ device => device.tenantId == t) closeRequest
      calls := s.calls.put p (.plucking t) }
  | .plucking t => { s with
      calls := s.calls.put p (.cancelling t ((s.update.devices.entries.filter fun e =>
        e.2.tenantId == t).map (·.1))) }
  | .cancelling t ids => { s.returnCall p t with
      update := s.update.write (.cancel ids s.update.clock) }

/-- The call throws, except that `cancelOpenAttempts` only logs its error. -/
def callFail (s : PolicyState) (p : Nat) : PolicyState :=
  match s.calls.get p with
  | some (.cancelling t _) => s.returnCall p t
  | _ => s.endCall p

/-- `body.agentVersion || device.agentVersion || ''`. -/
def reportedVersion (agentVersion : List Char) (device : UpdateDevice) : List Char :=
  if agentVersion ≠ [] then agentVersion else device.agentVersion.getD []

/-- A step of the update server; the heartbeats start in `PolicyBeat`, and one that is granted its
slot is answered with a `latestVersion`. -/
def policyUpdate (s : PolicyState) (a : UpdateAction) : Option PolicyState :=
  match a with
  | .beat .. => none
  | .beatNext n => (updateStep s.update (.beatNext n)).map fun u =>
      match s.update.beats.get n, s.beats.get n with
      | some (.granted _ _), some (.entered tenantId) => { s with
          update := u
          offers := s.offers ++ [⟨n, tenantId, decide (tenantId ∈ s.marks n)⟩] }
      | _, _ => { s with update := u }
  | _ => (updateStep s.update a).map fun u => { s with update := u }

/-- One step. -/
def policyStep (s : PolicyState) : PolicyAction → Option PolicyState
  | .update a => policyUpdate s a
  | .configure settings globalPolicy chains =>
    some { s with settings := settings, globalPolicy := globalPolicy, chains := chains }
  | .writeTenant tenantId row => some (s.writeTenant tenantId row)
  | .invalidate => some s.invalidate
  | .lookup n => if s.unused n then some (s.ask n) else none
  | .readTenants n failed =>
    (s.tenantCache.fetch n fun _ =>
      if failed then none else some (loadTenantUpdatePolicies s.tenants)).map fun c =>
        { s with tenantCache := c }
  | .storeTenants n =>
    (s.tenantCache.finish none n s.update.clock).map fun r =>
      match s.beats.get n with
      | some (.hydrating deviceId agentVersion row settings globalPolicy chains _) => { s with
          tenantCache := r.2
          beats := s.beats.put n
            (.hydrating deviceId agentVersion row settings globalPolicy chains (some r.1.2)) }
      | _ => { s with tenantCache := r.2 }
  | .readChains n failed =>
    (s.chainCache.fetch n fun _ => if failed then none else some s.chains).map fun c =>
      { s with chainCache := c }
  | .storeChains n =>
    (s.chainCache.finish none n s.update.clock).map fun r =>
      match s.beats.get n with
      | some (.hydrating deviceId agentVersion row settings globalPolicy _ tenants) => { s with
          chainCache := r.2
          beats := s.beats.put n
            (.hydrating deviceId agentVersion row settings globalPolicy (some r.1.2) tenants) }
      | _ => { s with chainCache := r.2 }
  | .setPolicy p tenantId policy =>
    if (s.calls.get p).isNone then
      some { s.endCall p with calls := s.calls.put p (.reading tenantId policy) }
    else none
  | .callNext p => (s.calls.get p).map fun call => callNext s p call
  | .callFail p => some (callFail s p)
  | .beat n deviceId agentVersion =>
    if s.unused n then some { s with
      beats := s.beats.put n (.arrived deviceId agentVersion)
      marks := fun m => if m = n then s.frozen else s.marks m }
    else none
  | .readRow n => match s.beats.get n with
    | some (.arrived deviceId agentVersion) => (s.update.devices.get deviceId).map fun row =>
        { s with beats := s.beats.put n (.known deviceId agentVersion row
          ((s.settings.get deviceId).getD (none, none))) }
    | _ => none
  | .ask n => match s.beats.get n with
    | some (.known deviceId agentVersion row settings) =>
      some { s.ask n with beats := s.beats.put n (.hydrating deviceId agentVersion row settings none
        (s.chainCache.lookup freshPolicies () s.update.clock)
        (s.tenantCache.lookup freshPolicies () s.update.clock)) }
    | _ => none
  | .readGlobal n => match s.beats.get n with
    | some (.hydrating deviceId agentVersion row settings _ chains tenants) =>
      some { s with beats := s.beats.put n (.hydrating deviceId agentVersion row settings
        (some s.globalPolicy) chains tenants) }
    | _ => none
  | .enter n closed => match s.beats.get n with
    | some (.hydrating deviceId agentVersion row settings (some globalPolicy) (some chains)
        (some tenants)) =>
      let device := hydrateDevice row (resolvedPolicyFor settings.1 row.tenantId globalPolicy
        (groupChainOf settings.2 chains) tenants)
      some { s with
        beats := s.beats.put n (.entered row.tenantId)
        update := s.update.setBeat n (.loaded (if closed then closeRequest device else device)
          deviceId (reportedVersion agentVersion device)) }
    | _ => none
  | .dropBeat n => match s.beats.get n with
    | some (.entered _) => none
    | some _ => some { s with beats := s.beats.erase n }
    | none => none

/-! ## The invariant -/

/-- A cached map of tenant policies, if the lookup succeeded, has the tenant at `off`. -/
def HoldsOff (t : Nat) (_ : Unit) (map : Option TenantPolicies) : Prop :=
  ∀ policies ∈ map, policies.lookup t = some .off

/-- The stored policy is `off`, and so is the cached one, or what a lookup has read of it. -/
def Frozen (s : PolicyState) (t : Nat) : Prop :=
  s.tenants.get t = some (some .off) ∧ s.tenantCache.Sound (HoldsOff t)

/-- Whether a lookup under way has read another policy of the tenant. -/
def readOther (s : PolicyState) (t : Nat) : Bool :=
  s.tenantCache.loads.any fun load => match load with
    | .read _ (some policies) => policies.lookup t != some .off
    | _ => false

/-- The condition: when the cache is dropped for a tenant that is frozen, no lookup under way has read
another policy of it. -/
def noStaleRead (s : PolicyState) : PolicyAction → Bool
  | .callNext p => match s.calls.get p with
    | some (.invalidating t (some .off)) => !readOther s t
    | _ => true
  | _ => true

/-- A heartbeat that `handlePush` goes on with under a policy of `off`, or that has ended. -/
def Unoffered (beat : Option Beat) : Prop :=
  ∀ b ∈ beat, ∃ device d reported, b = .loaded device d reported ∧ device.resolvedUpdatePolicy = .off

structure FreezeInv (s : PolicyState) : Prop where
  frozen : ∀ t ∈ s.frozen, Frozen s t
  stored : ∀ p, ∀ t ∈ s.holds p, s.tenants.get t = some (some .off)
  called : ∀ p, ∀ t ∈ s.holds p,
    s.calls.get p = some (.invalidating t (some .off)) ∨ Frozen s t
  marks : ∀ n, ∀ t ∈ s.marks n, t ∈ s.frozen
  hydrating : ∀ n d v row st g ch m, s.beats.get n = some (.hydrating d v row st g ch (some m)) →
    ∀ t ∈ s.marks n, HoldsOff t () m
  entered : ∀ n t, s.beats.get n = some (.entered t) → t ∈ s.marks n →
    Unoffered (s.update.beats.get n)
  offers : ∀ o ∈ s.offers, o.frozen = false

theorem lookup_loadTenantUpdatePolicies {tenants : Registry (Option AgentUpdatePolicy)} {t : Nat}
    {policy : AgentUpdatePolicy} (h : tenants.get t = some (some policy)) :
    (loadTenantUpdatePolicies tenants).lookup t = some policy := by
  obtain ⟨entries⟩ := tenants
  rw [Registry.get] at h
  rw [loadTenantUpdatePolicies]
  dsimp only at h ⊢
  induction entries with
  | nil => contradiction
  | cons e entries ih =>
    obtain ⟨u, row⟩ := e
    by_cases hu : u = t
    · subst hu
      rw [List.find?_cons_of_pos (by simp), Option.map_some, Option.some.injEq] at h
      dsimp only at h
      simp [h]
    · rw [List.find?_cons_of_neg (by simpa using hu)] at h
      cases row with
      | none => simpa using ih h
      | some p =>
        simp only [List.filterMap_cons, Option.map_some, List.lookup_cons,
          beq_false_of_ne (Ne.symm hu)]
        exact ih h

section invariant
variable {s s' : PolicyState} {t n p : Nat}

theorem holdsOff_source {failed : Bool} (h : s.tenants.get t = some (some .off)) (u : Unit) :
    HoldsOff t u (if failed then none else some (loadTenantUpdatePolicies s.tenants)) := by
  intro policies hp
  split at hp
  · contradiction
  · obtain rfl := Option.some.inj hp
    exact lookup_loadTenantUpdatePolicies h

theorem FreezeInv.of_cache (h : FreezeInv s) {c : AsyncCache Unit (Option TenantPolicies)}
    (hc : ∀ t, Frozen s t → c.Sound (HoldsOff t)) : FreezeInv { s with tenantCache := c } :=
  { h with
    frozen := fun t ht => ⟨(h.frozen t ht).1, hc t (h.frozen t ht)⟩
    called := fun p t ht => (h.called p t ht).imp_right fun hf => ⟨hf.1, hc t hf⟩ }

theorem FreezeInv.of_update (h : FreezeInv s) {u : UpdateServer}
    (hu : ∀ n, Unoffered (s.update.beats.get n) → Unoffered (u.beats.get n)) :
    FreezeInv { s with update := u } :=
  { h with entered := fun n t hn ht => hu n (h.entered n t hn ht) }

theorem FreezeInv.of_beats_eq (h : FreezeInv s) {u : UpdateServer} (hu : u.beats = s.update.beats) :
    FreezeInv { s with update := u } :=
  h.of_update fun n hn => by rwa [hu]

theorem Frozen.invalidate (h : Frozen s t) : Frozen s.invalidate t :=
  ⟨h.1, AsyncCache.sound_drop (fun k v _ _ hentry => h.2.entries k v _ hentry) h.2.reads⟩

theorem freezeInv_invalidate (h : FreezeInv s) : FreezeInv s.invalidate :=
  { h with
    frozen := fun t ht => (h.frozen t ht).invalidate
    called := fun p t ht => (h.called p t ht).imp_right Frozen.invalidate }

theorem sound_ask {n : Nat} (h : Frozen s t) : (s.ask n).tenantCache.Sound (HoldsOff t) := by
  unfold PolicyState.ask
  dsimp only
  split
  · exact h.2
  · exact h.2.start

theorem freezeInv_ask (h : FreezeInv s) : FreezeInv (s.ask n) :=
  { h with
    frozen := fun t ht => ⟨(h.frozen t ht).1, sound_ask (h.frozen t ht)⟩
    called := fun p t ht => (h.called p t ht).imp_right fun hf => ⟨hf.1, sound_ask hf⟩ }

theorem freezeInv_beat (h : FreezeInv s) {b : PolicyBeat}
    (hhydrating : ∀ d v row st g ch m, b = .hydrating d v row st g ch (some m) →
      ∀ t ∈ s.marks n, HoldsOff t () m)
    (hentered : ∀ t, b ≠ .entered t) : FreezeInv { s with beats := s.beats.put n b } := by
  refine { h with hydrating := ?_, entered := ?_ }
  · intro m d v row st g ch policies hm
    rcases Registry.get_put_eq_some hm with ⟨rfl, hb⟩ | ⟨-, hm⟩
    · exact hhydrating d v row st g ch policies hb
    · exact h.hydrating m d v row st g ch policies hm
  · intro m t hm
    rcases Registry.get_put_eq_some hm with ⟨-, hb⟩ | ⟨-, hm⟩
    · exact absurd hb (hentered t)
    · exact h.entered m t hm

theorem unoffered_beatNext {u u' : UpdateServer} {m : Nat}
    (h : updateStep u (.beatNext m) = some u') (hn : Unoffered (u.beats.get n)) :
    Unoffered (u'.beats.get n) := by
  obtain ⟨b, hb, h⟩ := Option.bind_eq_some_iff.mp h
  by_cases hm : n = m
  · subst hm
    obtain ⟨device, d, reported, rfl, hoff⟩ := hn b hb
    have hend : u' = u.endBeat n := by
      simp only [beatNext, shouldAdvertiseUpdate_off hoff, Bool.false_and, Bool.false_eq_true,
        if_false] at h
      split at h
      · exact (Option.some.inj h).symm
      · exact (Option.some.inj h).symm
    rw [hend, UpdateServer.endBeat, Unoffered]
    simp
  · rcases beats_beatNext h with hbeats | ⟨b', hbeats⟩
    · rwa [hbeats, Registry.get_erase_of_ne hm]
    · rwa [hbeats, Registry.get_put_of_ne hm]

theorem unoffered_beatFail {u u' : UpdateServer} {m : Nat}
    (h : updateStep u (.beatFail m) = some u') (hn : Unoffered (u.beats.get n)) :
    Unoffered (u'.beats.get n) := by
  obtain ⟨b, hb, h⟩ := Option.bind_eq_some_iff.mp h
  by_cases hm : n = m
  · subst hm
    obtain ⟨device, d, reported, rfl, -⟩ := hn b hb
    contradiction
  · rcases beats_beatFail h with hbeats | ⟨b', hbeats⟩
    · rwa [hbeats, Registry.get_erase_of_ne hm]
    · rwa [hbeats, Registry.get_put_of_ne hm]

theorem freezeInv_update {a : UpdateAction} (h : FreezeInv s) (hs : policyUpdate s a = some s') :
    FreezeInv s' := by
  cases a with
  | beat => contradiction
  | beatNext n =>
    obtain ⟨u, hu, rfl⟩ := Option.map_eq_some_iff.mp hs
    have hupdate := h.of_update fun m hm => unoffered_beatNext (n := m) hu hm
    split
    · rename_i tenantId hgranted hentered
      refine { hupdate with offers := ?_ }
      intro o ho
      rcases List.mem_append.mp ho with ho | ho
      · exact h.offers o ho
      · rw [List.mem_singleton.mp ho]
        -- a granted heartbeat is not one of a frozen tenant
        refine decide_eq_false ?_
        intro hmark
        obtain ⟨device, d, reported, hb, -⟩ := h.entered n tenantId hentered hmark _ hgranted
        contradiction
    · exact hupdate
  | beatFail n =>
    obtain ⟨u, hu, rfl⟩ := Option.map_eq_some_iff.mp hs
    exact h.of_update fun m hm => unoffered_beatFail (n := m) hu hm
  | _ =>
    simp only [policyUpdate] at hs
    obtain ⟨u, hu, rfl⟩ := Option.map_eq_some_iff.mp hs
    exact h.of_beats_eq ((updateStep_does hu).slots rfl).1

section write
variable {u : Nat} {row : Option (Option AgentUpdatePolicy)}

theorem writeTenant_tenants : (s.writeTenant u row).tenants = writeRow s.tenants u row := by
  unfold PolicyState.writeTenant
  split <;> rfl

theorem writeTenant_cache : (s.writeTenant u row).tenantCache = s.tenantCache := by
  unfold PolicyState.writeTenant
  split <;> rfl

theorem writeTenant_same : (s.writeTenant u row).calls = s.calls ∧
    (s.writeTenant u row).beats = s.beats ∧ (s.writeTenant u row).update = s.update ∧
      (s.writeTenant u row).offers = s.offers := by
  unfold PolicyState.writeTenant
  split <;> exact ⟨rfl, rfl, rfl, rfl⟩

theorem get_writeRow_of_ne {tenants : Registry (Option AgentUpdatePolicy)} (h : t ≠ u) :
    (writeRow tenants u row).get t = tenants.get t := by
  cases row with
  | none => exact Registry.get_erase_of_ne h
  | some policy => exact Registry.get_put_of_ne h

theorem stored_writeTenant (h : s.tenants.get t = some (some .off))
    (ht : row = some (some .off) ∨ t ≠ u) :
    (s.writeTenant u row).tenants.get t = some (some .off) := by
  rw [writeTenant_tenants]
  by_cases hu : t = u
  · obtain rfl := ht.resolve_right (not_not_intro hu)
    rw [hu]
    exact Registry.get_put_self
  · rw [get_writeRow_of_ne hu, h]

theorem Frozen.writeTenant (h : Frozen s t) (ht : row = some (some .off) ∨ t ≠ u) :
    Frozen (s.writeTenant u row) t :=
  ⟨stored_writeTenant h.1 ht, by rw [writeTenant_cache]; exact h.2⟩

theorem mem_writeTenant : (t ∈ (s.writeTenant u row).frozen ↔
      t ∈ s.frozen ∧ (row = some (some .off) ∨ t ≠ u)) ∧
    (∀ p, t ∈ (s.writeTenant u row).holds p ↔
      t ∈ s.holds p ∧ (row = some (some .off) ∨ t ≠ u)) ∧
    ∀ n, t ∈ (s.writeTenant u row).marks n ↔
      t ∈ s.marks n ∧ (row = some (some .off) ∨ t ≠ u) := by
  unfold PolicyState.writeTenant
  by_cases hrow : row = some (some .off)
  · simp [hrow]
  · simp [hrow]

theorem freezeInv_writeTenant (h : FreezeInv s) : FreezeInv (s.writeTenant u row) := by
  obtain ⟨hcalls, hbeats, hupdate, hoffers⟩ : (s.writeTenant u row).calls = s.calls ∧
      (s.writeTenant u row).beats = s.beats ∧ (s.writeTenant u row).update = s.update ∧
        (s.writeTenant u row).offers = s.offers := writeTenant_same
  refine ⟨?_, ?_, ?_, ?_, ?_, ?_, ?_⟩
  · intro t ht
    obtain ⟨hmem, hkept⟩ := mem_writeTenant.1.mp ht
    exact (h.frozen t hmem).writeTenant hkept
  · intro p t ht
    obtain ⟨hmem, hkept⟩ := (mem_writeTenant.2.1 p).mp ht
    exact stored_writeTenant (h.stored p t hmem) hkept
  · intro p t ht
    obtain ⟨hmem, hkept⟩ := (mem_writeTenant.2.1 p).mp ht
    rw [hcalls]
    exact (h.called p t hmem).imp_right fun hf => hf.writeTenant hkept
  · intro n t ht
    obtain ⟨hmem, hkept⟩ := (mem_writeTenant.2.2 n).mp ht
    exact mem_writeTenant.1.mpr ⟨h.marks n t hmem, hkept⟩
  · intro n d v row st g ch m hn t ht
    rw [hbeats] at hn
    exact h.hydrating n d v row st g ch m hn t ((mem_writeTenant.2.2 n).mp ht).1
  · intro n t hn ht
    rw [hbeats] at hn
    rw [hupdate]
    exact h.entered n t hn ((mem_writeTenant.2.2 n).mp ht).1
  · rw [hoffers]
    exact h.offers

end write

/-! ## The call -/

section call
variable {call : PolicyCall}

theorem freezeInv_endCall (h : FreezeInv s) : FreezeInv (s.endCall p) := by
  refine { h with stored := ?_, called := ?_ }
  · intro q t ht
    by_cases hq : q = p
    · simp [PolicyState.endCall, hq] at ht
    · exact h.stored q t (by simpa [PolicyState.endCall, hq] using ht)
  · intro q t ht
    by_cases hq : q = p
    · simp [PolicyState.endCall, hq] at ht
    · refine (h.called q t (by simpa [PolicyState.endCall, hq] using ht)).imp_left ?_
      intro hcall
      exact (Registry.get_erase_of_ne hq).trans hcall

theorem freezeInv_call (h : FreezeInv s)
    (hcall : ∀ t ∈ s.holds p, call = .invalidating t (some .off) ∨ Frozen s t) :
    FreezeInv { s with calls := s.calls.put p call } := by
  refine { h with called := ?_ }
  intro q t ht
  by_cases hq : q = p
  · subst hq
    refine (hcall t ht).imp_left ?_
    rintro rfl
    exact Registry.get_put_self
  · refine (h.called q t ht).imp_left ?_
    intro hcall
    exact (Registry.get_put_of_ne hq).trans hcall

theorem frozen_of_called (h : FreezeInv s) (hp : s.calls.get p = some call)
    (hcall : ∀ t, call ≠ .invalidating t (some .off)) : ∀ t ∈ s.holds p, Frozen s t := by
  intro t ht
  refine (h.called p t ht).resolve_left ?_
  intro hinvalidating
  rw [hp, Option.some.injEq] at hinvalidating
  exact hcall t hinvalidating

theorem frozen_of_noStaleRead (hstored : s.tenants.get t = some (some .off))
    (hread : readOther s t = false) : Frozen s.invalidate t := by
  refine ⟨hstored, AsyncCache.sound_drop (fun _ _ _ hp => by simp at hp) ?_⟩
  intro n k map hload policies hmap
  obtain rfl := Option.mem_def.mp hmap
  by_contra hother
  refine absurd hread ?_
  rw [readOther, Bool.not_eq_false, Registry.any_eq_true]
  exact ⟨n, _, hload, by simpa using hother⟩

theorem freezeInv_returnCall {ids : List Nat} (h : FreezeInv s)
    (hp : s.calls.get p = some (.cancelling t ids)) : FreezeInv (s.returnCall p t) := by
  refine { freezeInv_endCall (p := p) h with frozen := ?_, marks := ?_ }
  · intro u hu
    rw [PolicyState.returnCall] at hu
    dsimp only at hu
    split at hu
    · rename_i hholds
      rcases List.mem_cons.mp hu with rfl | hu
      · exact frozen_of_called h hp (by simp) u hholds
      · exact h.frozen u hu
    · exact h.frozen u hu
  · intro n u hu
    have hmem := h.marks n u hu
    rw [PolicyState.returnCall]
    dsimp only
    split
    · exact List.mem_cons_of_mem _ hmem
    · exact hmem

theorem freezeInv_callNext (h : FreezeInv s) (hp : s.calls.get p = some call)
    (hok : noStaleRead s (.callNext p) = true) : FreezeInv (callNext s p call) := by
  cases call with
  | reading t policy =>
    exact freezeInv_call h fun u hu => .inr (frozen_of_called h hp (by simp) u hu)
  | updating t policy =>
    rw [callNext]
    split
    · exact freezeInv_endCall h
    · have hw : FreezeInv (s.writeTenant t (some policy)) := freezeInv_writeTenant h
      refine { hw with stored := ?_, called := ?_ }
      · intro q u hu
        dsimp only at hu ⊢
        by_cases hq : q = p
        · rw [if_pos hq] at hu
          split at hu
          · rename_i hoff
            rw [List.mem_singleton.mp hu, hoff]
            exact writeTenant_tenants.symm ▸ Registry.get_put_self
          · contradiction
        · rw [if_neg hq] at hu
          exact hw.stored q u hu
      · intro q u hu
        dsimp only at hu ⊢
        by_cases hq : q = p
        · rw [if_pos hq] at hu
          split at hu
          · rename_i hoff
            rw [List.mem_singleton.mp hu, hq, hoff]
            exact .inl Registry.get_put_self
          · contradiction
        · rw [if_neg hq] at hu
          refine (hw.called q u hu).imp_left ?_
          intro hcall
          rw [writeTenant_same.1] at hcall
          exact (Registry.get_put_of_ne hq).trans hcall
  | invalidating t policy =>
    rw [callNext]
    have hinv := freezeInv_invalidate h
    split
    · rename_i hoff
      refine freezeInv_call hinv ?_
      intro u hu
      right
      rcases h.called p u hu with hcall | hf
      · rw [hp, Option.some.injEq] at hcall
        obtain ⟨rfl, rfl⟩ := PolicyCall.invalidating.inj hcall
        simp only [noStaleRead, hp, Bool.not_eq_true'] at hok
        exact frozen_of_noStaleRead (h.stored p t hu) hok
      · exact hf.invalidate
    · exact freezeInv_endCall hinv
  | clearing t =>
    have hcall : FreezeInv { s with calls := s.calls.put p (.plucking t) } :=
      freezeInv_call h fun u hu => .inr (frozen_of_called h hp (by simp) u hu)
    exact hcall.of_beats_eq (u := s.update.updateDevices _ _) rfl
  | plucking t => exact freezeInv_call h fun u hu => .inr (frozen_of_called h hp (by simp) u hu)
  | cancelling t ids => exact (freezeInv_returnCall h hp).of_beats_eq (u := s.update.write _) rfl

theorem freezeInv_callFail (h : FreezeInv s) : FreezeInv (callFail s p) := by
  unfold callFail
  split
  · rename_i hp
    exact freezeInv_returnCall h hp
  · exact freezeInv_endCall h

end call

/-! ## Every step -/

section steps
variable {deviceId : Nat} {agentVersion : List Char}

theorem freezeInv_storeTenants (h : FreezeInv s) (hs : policyStep s (.storeTenants n) = some s') :
    FreezeInv s' := by
  obtain ⟨⟨⟨k, m⟩, c⟩, hc, rfl⟩ := Option.map_eq_some_iff.mp hs
  have hcache := h.of_cache fun t ht => (ht.2.finish hc).2
  split
  · refine freezeInv_beat hcache ?_ (by simp)
    rintro d v row st g ch m' heq t ht
    obtain rfl := Option.some.inj (PolicyBeat.hydrating.inj heq).2.2.2.2.2.2
    exact ((h.frozen t (h.marks n t ht)).2.finish hc).1
  · exact hcache

theorem freezeInv_storeChains (h : FreezeInv s) (hs : policyStep s (.storeChains n) = some s') :
    FreezeInv s' := by
  obtain ⟨r, -, rfl⟩ := Option.map_eq_some_iff.mp hs
  split
  · rename_i hn
    have hchain : FreezeInv { s with chainCache := r.2 } := { h with }
    refine freezeInv_beat hchain ?_ (by simp)
    rintro d v row st g ch m heq t ht
    rw [(PolicyBeat.hydrating.inj heq).2.2.2.2.2.2] at hn
    exact h.hydrating n _ _ _ _ _ _ m hn t ht
  · exact { h with }

theorem freezeInv_setPolicy (h : FreezeInv s) (call : PolicyCall) :
    FreezeInv { s.endCall p with calls := s.calls.put p call } := by
  have hend := freezeInv_endCall (p := p) h
  refine { hend with called := ?_ }
  intro q t ht
  refine (hend.called q t ht).imp_left ?_
  intro hcall
  obtain ⟨hq, hcall⟩ := Registry.get_erase_eq_some hcall
  exact (Registry.get_put_of_ne hq).trans hcall

theorem freezeInv_arrive (h : FreezeInv s) : FreezeInv { s with
    beats := s.beats.put n (.arrived deviceId agentVersion)
    marks := fun m => if m = n then s.frozen else s.marks m } := by
  refine { h with marks := ?_, hydrating := ?_, entered := ?_ }
  · intro m t ht
    dsimp only at ht
    split at ht
    · exact ht
    · exact h.marks m t ht
  · intro m d v row st g ch policies hm t ht
    rcases Registry.get_put_eq_some hm with ⟨-, hb⟩ | ⟨hne, hm⟩
    · contradiction
    · dsimp only at ht
      rw [if_neg hne] at ht
      exact h.hydrating m d v row st g ch policies hm t ht
  · intro m t hm ht
    rcases Registry.get_put_eq_some hm with ⟨-, hb⟩ | ⟨hne, hm⟩
    · contradiction
    · dsimp only at ht
      rw [if_neg hne] at ht
      exact h.entered m t hm ht

theorem freezeInv_enter {closed : Bool} (h : FreezeInv s) (hs : policyStep s (.enter n closed) = some s') :
    FreezeInv s' := by
  simp only [policyStep] at hs
  split at hs
  · rename_i deviceId agentVersion row settings globalPolicy chains tenants hn
    cases hs
    refine { h with hydrating := ?_, entered := ?_ }
    · intro m d v row st g ch policies hm
      rcases Registry.get_put_eq_some hm with ⟨-, hb⟩ | ⟨-, hm⟩
      · contradiction
      · exact h.hydrating m d v row st g ch policies hm
    · intro m t hm ht
      rcases Registry.get_put_eq_some hm with ⟨rfl, hb⟩ | ⟨hne, hm⟩
      · obtain rfl := PolicyBeat.entered.inj hb
        have hoff : (resolvedPolicyFor settings.1 row.tenantId globalPolicy
            (groupChainOf settings.2 chains) tenants).policy = .off :=
          resolvedPolicyFor_off (h.hydrating m _ _ _ _ _ _ tenants hn _ ht)
        rw [UpdateServer.setBeat, Unoffered]
        simp only [Registry.get_put_self]
        rintro b hb
        obtain rfl := Option.some.inj hb
        refine ⟨_, _, _, rfl, ?_⟩
        split
        · exact hoff
        · exact hoff
      · rw [UpdateServer.setBeat]
        dsimp only
        rw [Registry.get_put_of_ne hne]
        exact h.entered m t hm ht
  · contradiction

theorem freezeInv_dropBeat (h : FreezeInv s) : FreezeInv { s with beats := s.beats.erase n } := by
  refine { h with hydrating := ?_, entered := ?_ }
  · intro m d v row st g ch policies hm
    exact h.hydrating m d v row st g ch policies (Registry.get_erase_eq_some hm).2
  · exact fun m t hm => h.entered m t (Registry.get_erase_eq_some hm).2

theorem freezeInv_step {a : PolicyAction} (h : FreezeInv s) (hok : noStaleRead s a = true)
    (hs : policyStep s a = some s') : FreezeInv s' := by
  cases a with
  | update a => exact freezeInv_update h hs
  | configure settings globalPolicy chains =>
    cases hs
    exact { h with }
  | writeTenant u row =>
    cases hs
    exact freezeInv_writeTenant h
  | invalidate =>
    cases hs
    exact freezeInv_invalidate h
  | lookup n =>
    simp only [policyStep] at hs
    split at hs
    · cases hs
      exact freezeInv_ask h
    · contradiction
  | readTenants n failed =>
    obtain ⟨c, hc, rfl⟩ := Option.map_eq_some_iff.mp hs
    exact h.of_cache fun t ht => ht.2.fetch (holdsOff_source ht.1) hc
  | storeTenants n => exact freezeInv_storeTenants h hs
  | readChains n failed =>
    obtain ⟨c, -, rfl⟩ := Option.map_eq_some_iff.mp hs
    exact { h with }
  | storeChains n => exact freezeInv_storeChains h hs
  | setPolicy p u policy =>
    simp only [policyStep] at hs
    split at hs
    · cases hs
      exact freezeInv_setPolicy h (.reading u policy)
    · contradiction
  | callNext p =>
    obtain ⟨call, hcall, rfl⟩ := Option.map_eq_some_iff.mp hs
    exact freezeInv_callNext h hcall hok
  | callFail p =>
    cases hs
    exact freezeInv_callFail h
  | beat n deviceId agentVersion =>
    simp only [policyStep] at hs
    split at hs
    · cases hs
      exact freezeInv_arrive h
    · contradiction
  | readRow n =>
    simp only [policyStep] at hs
    split at hs
    · obtain ⟨row, -, rfl⟩ := Option.map_eq_some_iff.mp hs
      exact freezeInv_beat h (by simp) (by simp)
    · contradiction
  | ask n =>
    simp only [policyStep] at hs
    split at hs
    · cases hs
      refine freezeInv_beat (freezeInv_ask h) ?_ (by simp)
      rintro d v row st g ch m heq t ht
      exact (h.frozen t (h.marks n t ht)).2.lookup (PolicyBeat.hydrating.inj heq).2.2.2.2.2.2
    · contradiction
  | readGlobal n =>
    simp only [policyStep] at hs
    split at hs
    · rename_i hn
      cases hs
      refine freezeInv_beat h ?_ (by simp)
      rintro d v row st g ch m heq t ht
      rw [(PolicyBeat.hydrating.inj heq).2.2.2.2.2.2] at hn
      exact h.hydrating n _ _ _ _ _ _ m hn t ht
    · contradiction
  | enter n closed => exact freezeInv_enter h hs
  | dropBeat n =>
    simp only [policyStep] at hs
    split at hs
    · contradiction
    · cases hs
      exact freezeInv_dropBeat h
    · contradiction

end steps

end invariant

/-- In every run under the condition, no heartbeat of a tenant that was frozen when it started is
answered with a `latestVersion` while the stored policy stays `off`. -/
theorem tenant_frozen (update : UpdateServer) (as : List PolicyAction) (s : PolicyState)
    (hok : StepsMeet policyStep (fun s a => noStaleRead s a) (.init update) as)
    (h : run policyStep (.init update) as = some s) : ∀ o ∈ s.offers, o.frozen = false := by
  have h0 : FreezeInv (.init update) := by
    constructor <;> simp [PolicyState.init]
  exact (run_invariant (fun _ _ _ hs hok hstep => freezeInv_step hs hok hstep) h0 hok h).offers

/-- One agent under `auto`, in a tenant without a policy. -/
def autoAgent : List PolicyAction :=
  [.configure ⟨[(0, some .auto, none)]⟩ none [], .writeTenant 1 (some none)]

/-- The tenant is frozen, and the call returns. -/
def freezeTenant : List PolicyAction := .setPolicy 0 1 (some .off) :: List.replicate 6 (.callNext 0)

/-- A heartbeat of the agent, whose lookups load where they find nothing, up to the written frame. -/
def wholeBeat (n : Nat) (loads : List PolicyAction) : List PolicyAction :=
  [.beat n 0 [], .readRow n, .ask n] ++ loads ++ [.readGlobal n, .enter n false] ++
    List.replicate 6 (.update (.beatNext n))

/-- The loads of a lookup. -/
def bothLoads (n : Nat) : List PolicyAction :=
  [.readTenants n false, .storeTenants n, .readChains n false, .storeChains n]

/-- A heartbeat is answered with an offer; then the tenant is frozen, and the next one is not. -/
def frozenInTime : List PolicyAction :=
  autoAgent ++ wholeBeat 1 (bothLoads 1) ++ freezeTenant ++
    [.beat 2 0 [], .readRow 2, .ask 2] ++ bothLoads 2 ++ [.readGlobal 2, .enter 2 false,
      .update (.beatNext 2)]

theorem tenant_frozen_inTime :
    (run policyStep (.init (updateFleet 1)) frozenInTime).map (·.offers) = some [⟨1, 1, false⟩] ∧
    ∃ s, run policyStep (.init (updateFleet 1)) frozenInTime = some s ∧
      ∀ o ∈ s.offers, o.frozen = false := by
  have hoffers : (run policyStep (.init (updateFleet 1)) frozenInTime).map (·.offers) =
      some [⟨1, 1, false⟩] := by decide +kernel
  refine ⟨hoffers, ?_⟩
  obtain ⟨s, hs, -⟩ := Option.map_eq_some_iff.mp hoffers
  exact ⟨s, hs, tenant_frozen (updateFleet 1) frozenInTime s (by decide +kernel) hs⟩

/-- Another lookup reads the tenants before the freeze, and stores what it read after it. -/
def staleLookup : List PolicyAction :=
  autoAgent ++ [.lookup 7, .readTenants 7 false] ++ freezeTenant ++ [.storeTenants 7] ++
    wholeBeat 1 [.readChains 1 false, .storeChains 1]

/-- The heartbeat that starts after the call has returned is answered with an offer. -/
theorem tenant_not_frozen : ¬ ∀ (update : UpdateServer) (as : List PolicyAction) (s : PolicyState),
    run policyStep (.init update) as = some s → ∀ o ∈ s.offers, o.frozen = false := by
  intro h
  have hoffers : (run policyStep (.init (updateFleet 1)) staleLookup).map (·.offers) =
      some [⟨1, 1, true⟩] := by decide +kernel
  obtain ⟨s, hs, hoffers⟩ := Option.map_eq_some_iff.mp hoffers
  have hfrozen := h (updateFleet 1) staleLookup s hs ⟨1, 1, true⟩ (by rw [hoffers]; simp)
  contradiction

end Obliguard.Server

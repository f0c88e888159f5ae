import Obliguard.Server.UpdateServer

/-!
# The update policy of a device

`resolveAgentUpdatePolicy` of `utils/agentUpdate.ts` over the four levels, and what `updateFieldsFor`
of `agent.service.ts` makes of it when a lookup may have failed.
-/

namespace Obliguard.Server

/-- A group of a chain with an explicit policy. -/
structure GroupPolicyEntry where
  groupId : Nat
  tenantId : Nat
  policy : AgentUpdatePolicy
deriving DecidableEq

/-- `updatePolicySource`. -/
inductive UpdatePolicySource
  | agent
  | group
  | tenant
  | global
  | default
  | unresolved
deriving DecidableEq

structure ResolvedAgentUpdatePolicy where
  policy : AgentUpdatePolicy
  source : UpdatePolicySource
  sourceGroupId : Option Nat
deriving DecidableEq

def defaultAgentUpdatePolicy : AgentUpdatePolicy := .manual

/-- `resolveAgentUpdatePolicy`; the chain is of the device's tenant, nearest group first. -/
def resolveAgentUpdatePolicy (devicePolicy : Option AgentUpdatePolicy)
    (groupChain : List GroupPolicyEntry) (tenantPolicy globalPolicy : Option AgentUpdatePolicy) :
    ResolvedAgentUpdatePolicy :=
  if globalPolicy = some .off then ⟨.off, .global, none⟩
  else if tenantPolicy = some .off then ⟨.off, .tenant, none⟩
  else match groupChain.reverse.find? (·.policy == .off) with
    | some e => ⟨.off, .group, some e.groupId⟩
    | none =>
      if devicePolicy = some .off then ⟨.off, .agent, none⟩
      else match devicePolicy, groupChain, tenantPolicy, globalPolicy with
      | some p, _, _, _ => ⟨p, .agent, none⟩
      | none, e :: _, _, _ => ⟨e.policy, .group, some e.groupId⟩
      | none, [], some p, _ => ⟨p, .tenant, none⟩
      | none, [], none, some p => ⟨p, .global, none⟩
      | none, [], none, none => ⟨defaultAgentUpdatePolicy, .default, none⟩

/-- The tenants with an explicit policy. -/
abbrev TenantPolicies := List (Nat × AgentUpdatePolicy)

/-- The chain of each group that has an explicit policy in it. -/
abbrev GroupPolicyChains := List (Nat × List GroupPolicyEntry)

/-- The chain of `updCtx`: a device with no group needs none. -/
def groupChainOf (groupId : Option Nat) (chains : Option GroupPolicyChains) :
    Option (List GroupPolicyEntry) :=
  match groupId with
  | none => some []
  | some g => chains.map fun chains => (chains.lookup g).getD []

/-- The resolved policy of `updateFieldsFor`; a lookup that failed freezes. -/
def resolvedPolicyFor (devicePolicy : Option AgentUpdatePolicy) (tenantId : Nat)
    (globalPolicy : Option AgentUpdatePolicy) (groupChain : Option (List GroupPolicyEntry))
    (tenantPolicies : Option TenantPolicies) : ResolvedAgentUpdatePolicy :=
  match groupChain, tenantPolicies with
  | some chain, some policies =>
    resolveAgentUpdatePolicy devicePolicy (chain.filter (·.tenantId == tenantId))
      (policies.lookup tenantId) globalPolicy
  | _, _ =>
    if globalPolicy = some .off then ⟨.off, .global, none⟩ else ⟨.off, .unresolved, none⟩

section resolve
variable {devicePolicy tenantPolicy globalPolicy : Option AgentUpdatePolicy} {tenantId : Nat}

theorem resolve_off_of_tenant {chain : List GroupPolicyEntry} :
    (resolveAgentUpdatePolicy devicePolicy chain (some .off) globalPolicy).policy = .off := by
  unfold resolveAgentUpdatePolicy
  split
  · rfl
  · rw [if_pos rfl]

theorem resolvedPolicyFor_off {groupChain : Option (List GroupPolicyEntry)}
    {policies : Option TenantPolicies}
    (h : ∀ p ∈ policies, p.lookup tenantId = some .off) :
    (resolvedPolicyFor devicePolicy tenantId globalPolicy groupChain policies).policy = .off := by
  unfold resolvedPolicyFor
  split
  · rename_i chain p
    rw [h p rfl]
    exact resolve_off_of_tenant
  · split <;> rfl

end resolve

/-- A row of `agent_devices` with its policy resolved, as `rowToDevice` returns it. -/
def hydrateDevice (row : UpdateDevice) (r : ResolvedAgentUpdatePolicy) : UpdateDevice :=
  { row with resolvedUpdatePolicy := r.policy, unresolved := r.source == .unresolved }

/-- What `reconcileUpdateRequest` leaves of a request that it closed. -/
def closeRequest (device : UpdateDevice) : UpdateDevice :=
  { device with updateRequestedAt := none, updateRequestedVersion := none }

theorem shouldAdvertiseUpdate_off {device : UpdateDevice} (h : device.resolvedUpdatePolicy = .off)
    (served reported : List Char) (now : Int) :
    shouldAdvertiseUpdate device served reported now = false := by
  simp [shouldAdvertiseUpdate, h]

end Obliguard.Server

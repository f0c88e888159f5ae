import Obliguard.Server.UpdatePolicy

/-!
# The update policy over its levels

`updCtx`, `updateFieldsFor` and `hydrateDeviceRow` of `agent.service.ts` over the lookups they read, and
the order of the levels that they have to respect: the levels are listed nearest first, the nearest value
that is set wins, and a frozen level wins over all of them (`cascade`). `hydrateDeviceRow_cascade` says
that the resolved policy is the one of the cascade, and that a frozen device is offered no version.
-/

namespace Obliguard.Server

/-! ## Cascades -/

section cascade
variable {α : Type} [DecidableEq α] {frozen default : α} {levels : List (Option α)}

/-- The nearest value that is set, `default` where none is, and `frozen` where any level has it. -/
def cascade (frozen default : α) (levels : List (Option α)) : α :=
  if some frozen ∈ levels then frozen else (levels.findSome? id).getD default

theorem cascade_frozen (h : some frozen ∈ levels) : cascade frozen default levels = frozen := if_pos h

theorem cascade_nearest (h : some frozen ∉ levels) :
    cascade frozen default levels = (levels.findSome? id).getD default := if_neg h

end cascade

/-! ## Levels -/

/-- `isAgentUpdatePolicy`, with the policy it recognises. -/
def agentUpdatePolicyOf (v : Option String) : Option AgentUpdatePolicy :=
  if v = some "auto" then some .auto
  else if v = some "manual" then some .manual
  else if v = some "off" then some .off
  else none

/-- The levels of a device, nearest first. -/
def policyLevels (devicePolicy : Option AgentUpdatePolicy) (groupChain : List GroupPolicyEntry)
    (tenantPolicy globalPolicy : Option AgentUpdatePolicy) : List (Option AgentUpdatePolicy) :=
  devicePolicy :: groupChain.map (some ·.policy) ++ [tenantPolicy, globalPolicy]

theorem resolve_eq_cascade (devicePolicy : Option AgentUpdatePolicy) (groupChain : List GroupPolicyEntry)
    (tenantPolicy globalPolicy : Option AgentUpdatePolicy) :
    (resolveAgentUpdatePolicy devicePolicy groupChain tenantPolicy globalPolicy).policy =
      cascade .off defaultAgentUpdatePolicy (policyLevels devicePolicy groupChain tenantPolicy globalPolicy) := by
  have hlevels : some .off ∈ policyLevels devicePolicy groupChain tenantPolicy globalPolicy ↔
      devicePolicy = some .off ∨ (∃ e ∈ groupChain, e.policy = .off) ∨ tenantPolicy = some .off ∨
        globalPolicy = some .off := by
    simp [policyLevels, eq_comm]
  unfold resolveAgentUpdatePolicy
  split
  · rename_i hglobal
    exact (cascade_frozen (hlevels.mpr (.inr (.inr (.inr hglobal))))).symm
  · rename_i hglobal
    split
    · rename_i htenant
      exact (cascade_frozen (hlevels.mpr (.inr (.inr (.inl htenant))))).symm
    · rename_i htenant
      split
      · rename_i e hfind
        have hoff : e.policy = .off := by
          have hbeq := List.find?_some hfind
          exact eq_of_beq hbeq
        have hmem : e ∈ groupChain := List.mem_reverse.mp (List.mem_of_find?_eq_some hfind)
        exact (cascade_frozen (hlevels.mpr (.inr (.inl ⟨e, hmem, hoff⟩)))).symm
      · rename_i hfind
        have hgroups : ¬ ∃ e ∈ groupChain, e.policy = .off := by
          rintro ⟨e, he, hoff⟩
          exact List.find?_eq_none.mp hfind e (List.mem_reverse.mpr he) (beq_iff_eq.mpr hoff)
        split
        · rename_i hdevice
          exact (cascade_frozen (hlevels.mpr (.inl hdevice))).symm
        · rename_i hdevice
          have hnone : some .off ∉ policyLevels devicePolicy groupChain tenantPolicy globalPolicy := by
            rw [hlevels]
            rintro (h | h | h | h)
            · exact hdevice h
            · exact hgroups h
            · exact htenant h
            · exact hglobal h
          rw [cascade_nearest hnone]
          split <;> rfl

/-! ## Hydration -/

/-- What the lookups of a hydration give, `none` where one failed. -/
structure PolicyLookups where
  /-- `getAgentGlobal().updatePolicy`. -/
  globalConfig : Option (Option String)
  /-- `getGroupUpdatePolicyChains`. -/
  chains : Option GroupPolicyChains
  /-- `getTenantUpdatePolicies`. -/
  tenantPolicies : Option TenantPolicies

/-- The columns of a device row that the policy depends on. -/
structure PolicyRow where
  tenantId : Nat
  groupId : Option Nat
  updatePolicy : Option String

/-- `UpdCtx`, without what the policy does not depend on. -/
structure UpdCtx where
  groupChain : Option (List GroupPolicyEntry)
  tenantPolicies : Option TenantPolicies

def updCtx (row : PolicyRow) (l : PolicyLookups) : UpdCtx where
  groupChain := groupChainOf row.groupId l.chains
  tenantPolicies := l.tenantPolicies

/-- The policy of `updateFieldsFor`; without a context there are no groups and no tenant level. -/
def updateFieldsFor (row : PolicyRow) (globalConfig : Option String) (upd : Option UpdCtx) :
    ResolvedAgentUpdatePolicy :=
  resolvedPolicyFor (agentUpdatePolicyOf row.updatePolicy) row.tenantId (agentUpdatePolicyOf globalConfig)
    ((upd.map (·.groupChain)).getD (some [])) ((upd.map (·.tenantPolicies)).getD (some []))

/-- `hydrateDeviceRow`, of a device whose other fields are those of `device`; it throws where the global
configuration cannot be read. -/
def hydrateDeviceRow (device : UpdateDevice) (row : PolicyRow) (l : PolicyLookups) : Option UpdateDevice :=
  l.globalConfig.map fun globalConfig =>
    hydrateDevice device (updateFieldsFor row globalConfig (some (updCtx row l)))

/-- A lookup that the device needs failed: its group has a chain to look up, its tenant a policy. -/
def LookupFailed (row : PolicyRow) (l : PolicyLookups) : Prop :=
  row.groupId ≠ none ∧ l.chains = none ∨ l.tenantPolicies = none

/-- The groups of the chain that are of the device's tenant. -/
def sameTenantChain (row : PolicyRow) (l : PolicyLookups) : List GroupPolicyEntry :=
  ((groupChainOf row.groupId l.chains).getD []).filter (·.tenantId = row.tenantId)

/-- The explicit policy of the device's tenant. -/
def tenantPolicyOf (row : PolicyRow) (l : PolicyLookups) : Option AgentUpdatePolicy :=
  l.tenantPolicies.bind (·.lookup row.tenantId)

/-- The device is frozen at some level. -/
def FrozenAt (row : PolicyRow) (l : PolicyLookups) (globalConfig : Option String) : Prop :=
  agentUpdatePolicyOf row.updatePolicy = some .off ∨ (∃ e ∈ sameTenantChain row l, e.policy = .off) ∨
    tenantPolicyOf row l = some .off ∨ agentUpdatePolicyOf globalConfig = some .off

section hydration
variable {row : PolicyRow} {l : PolicyLookups} {globalConfig : Option String}

theorem groupChainOf_eq_none {groupId : Option Nat} {chains : Option GroupPolicyChains} :
    groupChainOf groupId chains = none ↔ groupId ≠ none ∧ chains = none := by
  cases groupId with
  | none => simp [groupChainOf]
  | some g => simp [groupChainOf]

theorem updateFieldsFor_failed (h : LookupFailed row l) :
    (updateFieldsFor row globalConfig (some (updCtx row l))).policy = .off := by
  unfold updateFieldsFor resolvedPolicyFor
  rw [Option.map_some, Option.map_some, Option.getD_some, Option.getD_some, updCtx]
  dsimp only
  split
  · rename_i chain policies hchain hpolicies
    rcases h with h | h
    · rw [groupChainOf_eq_none.mpr h] at hchain
      contradiction
    · rw [h] at hpolicies
      contradiction
  · split <;> rfl

theorem updateFieldsFor_resolved (h : ¬ LookupFailed row l) :
    (updateFieldsFor row globalConfig (some (updCtx row l))).policy =
      cascade .off defaultAgentUpdatePolicy (policyLevels (agentUpdatePolicyOf row.updatePolicy)
        (sameTenantChain row l) (tenantPolicyOf row l) (agentUpdatePolicyOf globalConfig)) := by
  rw [LookupFailed, not_or, ← groupChainOf_eq_none] at h
  obtain ⟨chain, hchain⟩ := Option.ne_none_iff_exists'.mp h.1
  obtain ⟨policies, hpolicies⟩ := Option.ne_none_iff_exists'.mp h.2
  rw [← resolve_eq_cascade, sameTenantChain, tenantPolicyOf, updateFieldsFor, Option.map_some, Option.map_some,
    Option.getD_some, Option.getD_some, updCtx, hchain, hpolicies, Option.getD_some, Option.bind_some]
  rfl

theorem frozenAt_iff : FrozenAt row l globalConfig ↔ some .off ∈ policyLevels
    (agentUpdatePolicyOf row.updatePolicy) (sameTenantChain row l) (tenantPolicyOf row l)
    (agentUpdatePolicyOf globalConfig) := by
  simp [FrozenAt, policyLevels, eq_comm]

theorem shouldAdvertiseUpdate_pending {device : UpdateDevice} (h : device.status = .pending)
    (served reported : List Char) (now : Int) : shouldAdvertiseUpdate device served reported now = false := by
  simp [shouldAdvertiseUpdate, h]

end hydration

/-- Whatever the levels and the lookups: the policy of a hydrated device is `off` where a level is frozen or
a lookup failed, and else that of the nearest level; with a frozen level or a failed lookup no heartbeat is
offered a version, whatever request is pending and whatever version is reported; and nothing is hydrated
where the global configuration cannot be read. -/
theorem hydrateDeviceRow_cascade (device : UpdateDevice) (row : PolicyRow) (l : PolicyLookups) :
    (l.globalConfig = none → hydrateDeviceRow device row l = none) ∧
    ∀ globalConfig, l.globalConfig = some globalConfig →
      ∃ hydrated, hydrateDeviceRow device row l = some hydrated ∧
        (FrozenAt row l globalConfig ∨ LookupFailed row l → hydrated.resolvedUpdatePolicy = .off) ∧
        (¬ FrozenAt row l globalConfig → ¬ LookupFailed row l → hydrated.resolvedUpdatePolicy =
          ((policyLevels (agentUpdatePolicyOf row.updatePolicy) (sameTenantChain row l) (tenantPolicyOf row l)
            (agentUpdatePolicyOf globalConfig)).findSome? id).getD defaultAgentUpdatePolicy) ∧
        (FrozenAt row l globalConfig ∨ LookupFailed row l →
          ∀ (s : UpdateServer) (t deviceId : Nat) (reported : List Char) (requestedAt : Option Int)
            (requestedVersion : Option (List Char)),
            beatNext s t (.loaded { hydrated with
              updateRequestedAt := requestedAt
              updateRequestedVersion := requestedVersion } deviceId reported) = some (s.endBeat t)) := by
  refine ⟨fun hnone => by rw [hydrateDeviceRow, hnone]; rfl, fun globalConfig hglobal => ?_⟩
  have hoff : FrozenAt row l globalConfig ∨ LookupFailed row l →
      (updateFieldsFor row globalConfig (some (updCtx row l))).policy = .off := by
    intro h
    by_cases hfailed : LookupFailed row l
    · exact updateFieldsFor_failed hfailed
    · rw [updateFieldsFor_resolved hfailed]
      exact cascade_frozen (frozenAt_iff.mp (h.resolve_right hfailed))
  refine ⟨_, by rw [hydrateDeviceRow, hglobal, Option.map_some], hoff, fun hfrozen hfailed => ?_,
    fun h s t deviceId reported requestedAt requestedVersion => ?_⟩
  · exact (updateFieldsFor_resolved hfailed).trans (cascade_nearest (mt frozenAt_iff.mpr hfrozen))
  · rw [beatNext]
    split
    · rw [shouldAdvertiseUpdate_off (hoff h), Bool.false_and, if_neg Bool.false_ne_true]
    · rfl

/-- A device of tenant 1 in a group of tenant 2 that is frozen, below a group of its own tenant. -/
theorem hydrateDeviceRow_cascade_nested :
    let device : UpdateDevice := ⟨1, .agent, .approved, none, .manual, false, none, none, none, none⟩
    let row : PolicyRow := ⟨1, some 5, none⟩
    let l : PolicyLookups := ⟨some (some "manual"), some [(5, [⟨5, 2, .off⟩, ⟨4, 1, .auto⟩])], some [(2, .off)]⟩
    ¬ FrozenAt row l (some "manual") ∧ ¬ LookupFailed row l ∧
      ∃ hydrated, hydrateDeviceRow device row l = some hydrated ∧ hydrated.resolvedUpdatePolicy = .auto := by
  intro device row l
  have hfrozen : ¬ FrozenAt row l (some "manual") := by
    rw [frozenAt_iff]
    decide
  have hfailed : ¬ LookupFailed row l := by
    rintro (⟨-, h⟩ | h)
    · contradiction
    · contradiction
  obtain ⟨hydrated, hhydrated, -, hnearest, -⟩ :=
    (hydrateDeviceRow_cascade device row l).2 (some "manual") rfl
  exact ⟨hfrozen, hfailed, hydrated, hhydrated, hnearest hfrozen hfailed⟩

end Obliguard.Server

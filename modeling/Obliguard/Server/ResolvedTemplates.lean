import Mathlib.Data.List.Dedup
import Mathlib.Logic.Function.Basic
import Obliguard.Lib.Keyed
import Obliguard.Server.ServiceOptIn

/-!
# Resolution of service templates

`resolveForAgents`, `resolveForAgent` and `getResolvedForGroup` of
`server/src/services/serviceTemplate.service.ts` over the templates and their assignments. The batch loads every
row at once and indexes it: `batch_resolved` says that each agent gets what the two direct look-ups
`agentAssignment` and `nearestAssignment` give it, and `resolution_agrees` what each entry is made of.
-/

namespace Obliguard.Server

/-! ## Rows -/

inductive TemplateScope
  | group
  | agent
deriving DecidableEq

structure ServiceTemplateRow where
  id : Nat
  name : String
  serviceType : String
  isBuiltin : Bool
  defaultLogPath : Option String
  customRegex : Option String
  threshold : Nat
  windowSeconds : Nat
  enabled : Bool
  mode : ServiceTemplateMode
  ownerScope : Option TemplateScope
  ownerScopeId : Option Nat
deriving DecidableEq

structure ServiceTemplateAssignmentRow where
  id : Nat
  templateId : Nat
  scope : TemplateScope
  scopeId : Nat
  logPathOverride : Option String
  thresholdOverride : Option Nat
  windowSecondsOverride : Option Nat
  enabledOverride : Option Bool
  sampleRequested : Bool
deriving DecidableEq

/-- The columns of the unique constraint. -/
def ServiceTemplateAssignmentRow.key (r : ServiceTemplateAssignmentRow) : Nat × TemplateScope × Nat :=
  (r.templateId, r.scope, r.scopeId)

structure TemplateDb where
  templates : Keyed ServiceTemplateRow.id
  assignments : Keyed ServiceTemplateAssignmentRow.key
  closure : List Closure

/-- `ResolvedServiceConfig` with the fields that only the interface shows. -/
structure ResolvedEntry extends ResolvedServiceConfig where
  isBuiltin : Bool
  enabledOverrideScope : Option TemplateScope
  templateOwnerScope : Option TemplateScope
  thresholdOverrideScope : Option TemplateScope
  thresholdOverride : Option Nat
  windowSecondsOverride : Option Nat
deriving DecidableEq

/-- An agent to resolve: its id and its ancestor group ids, closest first. -/
structure AgentTemplateScope where
  deviceId : Nat
  groupIds : List Nat

/-! ## One entry -/

section entry
variable {α : Type} (agent group : Option ServiceTemplateAssignmentRow)

/-- `agent?.f ?? group?.f ?? fallback`. -/
def overridden (f : ServiceTemplateAssignmentRow → Option α) (fallback : α) : α :=
  ((agent.bind f).or (group.bind f)).getD fallback

/-- The scope whose assignment sets the field. -/
def overrideScope (f : ServiceTemplateAssignmentRow → Option α) : Option TemplateScope :=
  if (agent.bind f).isSome then some .agent
  else if (group.bind f).isSome then some .group
  else none

/-- The field of the agent's assignment, or of the group's if there is none: a null of the former counts. -/
def rawOverride (f : ServiceTemplateAssignmentRow → Option α) : Option α :=
  match agent with
  | some a => f a
  | none => group.bind f

def buildResolvedEntry (tpl : ServiceTemplateRow) (owner : Option TemplateScope) : ResolvedEntry where
  templateId := tpl.id
  name := tpl.name
  serviceType := tpl.serviceType
  isBuiltin := tpl.isBuiltin
  logPath := overridden agent group (fun r => r.logPathOverride.map some) tpl.defaultLogPath
  customRegex := tpl.customRegex
  threshold := overridden agent group (·.thresholdOverride) tpl.threshold
  windowSeconds := overridden agent group (·.windowSecondsOverride) tpl.windowSeconds
  enabled := overridden agent group (·.enabledOverride) tpl.enabled
  mode := tpl.mode
  sampleRequested := agent.any (·.sampleRequested)
  enabledOverrideScope := overrideScope agent group (·.enabledOverride)
  templateOwnerScope := owner
  thresholdOverrideScope := overrideScope agent group (·.thresholdOverride)
  thresholdOverride := rawOverride agent group (·.thresholdOverride)
  windowSecondsOverride := rawOverride agent group (·.windowSecondsOverride)

end entry

/-- `sortResolved`, stable. -/
def sortEntries (coll : Collation) (resolved : List ResolvedEntry) : List ResolvedEntry :=
  resolved.insertionSort fun a b => coll.resolvedLe a.toResolvedServiceConfig b.toResolvedServiceConfig

theorem map_sortEntries (coll : Collation) (resolved : List ResolvedEntry) :
    (sortEntries coll resolved).map ResolvedEntry.toResolvedServiceConfig =
      sortResolved coll (resolved.map ResolvedEntry.toResolvedServiceConfig) :=
  List.map_insertionSort _ _ _ _ fun _ _ _ _ => Iff.rfl

/-! ## Queries -/

section queries
variable (db : TemplateDb)

def orderById (rows : List ServiceTemplateRow) : List ServiceTemplateRow :=
  rows.insertionSort fun a b => a.id ≤ b.id

def orderAssignments (rows : List ServiceTemplateAssignmentRow) : List ServiceTemplateAssignmentRow :=
  rows.insertionSort fun a b => a.id ≤ b.id

/-- `WHERE owner_scope IS NULL`. -/
def selectGlobal : List ServiceTemplateRow := db.templates.rows.filter fun t => t.ownerScope = none

/-- The templates owned by one of the groups. -/
def selectOwned (groupIds : List Nat) : List ServiceTemplateRow :=
  db.templates.rows.filter fun t => t.ownerScope = some .group ∧ ∃ g ∈ groupIds, t.ownerScopeId = some g

/-- The assignments at a scope, of some of its ids and some templates. -/
def selectAssignments (scope : TemplateScope) (scopeIds templateIds : List Nat) :
    List ServiceTemplateAssignmentRow :=
  db.assignments.rows.filter fun r => r.scope = scope ∧ r.scopeId ∈ scopeIds ∧ r.templateId ∈ templateIds

/-- The ancestors of a group, itself included, closest first. -/
def ancestorGroupIds (groupId : Nat) : List Nat :=
  ((db.closure.filter fun c => c.descendantId = groupId).insertionSort fun a b => a.depth ≤ b.depth).map
    (·.ancestorId)

end queries

/-! ## Resolution -/

/-- A `Map` set row by row. -/
def indexBy {α β κ : Type} [DecidableEq κ] (key : α → κ) (value : α → β) (rows : List α) : κ → Option β :=
  rows.foldl (fun m r => Function.update m (key r) (some (value r))) fun _ => none

/-- The first assignment of the template, group by group. -/
def firstAssignment (byGroup : Nat → List ServiceTemplateAssignmentRow) (groupIds : List Nat) (templateId : Nat) :
    Option ServiceTemplateAssignmentRow :=
  (groupIds.flatMap byGroup).find? fun r => r.templateId = templateId

section resolve
variable (coll : Collation) (db : TemplateDb)

/-- `resolveForAgents`; the result is a map of device ids. -/
def resolveForAgents (agents : List AgentTemplateScope) : Nat → Option (List ResolvedEntry) :=
  let globalTemplates := orderById (selectGlobal db)
  let directGroupIds := (agents.filterMap (·.groupIds.head?)).dedup
  let groupOwnedTemplates := orderById (selectOwned db directGroupIds)
  let ownedByGroup := fun g => groupOwnedTemplates.filter fun t => t.ownerScopeId = some g
  if globalTemplates = [] ∧ groupOwnedTemplates = [] then indexBy (·.deviceId) (fun _ => []) agents
  else
    let allTemplateIds := (globalTemplates ++ groupOwnedTemplates).map (·.id)
    let globalTemplateIds := globalTemplates.map (·.id)
    let deviceIds := (agents.map (·.deviceId)).dedup
    let agentAssignments := orderAssignments (selectAssignments db .agent deviceIds allTemplateIds)
    let agentAssignmentByKey := indexBy (fun r => (r.scopeId, r.templateId)) id agentAssignments
    let ancestorIds := (agents.flatMap (·.groupIds)).dedup
    let allGroupAssignments :=
      if ancestorIds ≠ [] ∧ globalTemplateIds ≠ [] then
        orderAssignments (selectAssignments db .group ancestorIds globalTemplateIds)
      else []
    let groupAssignmentsByGroup := fun g => allGroupAssignments.filter fun r => r.scopeId = g
    indexBy (·.deviceId) (fun a =>
      let groupAssignmentByTemplate := firstAssignment groupAssignmentsByGroup a.groupIds
      let agentAssignment := fun templateId => agentAssignmentByKey (a.deviceId, templateId)
      let owned := match a.groupIds.head? with
        | some directGroupId => ownedByGroup directGroupId
        | none => []
      sortEntries coll
        (globalTemplates.map (fun tpl =>
            buildResolvedEntry (agentAssignment tpl.id) (groupAssignmentByTemplate tpl.id) tpl none) ++
          owned.map fun tpl => buildResolvedEntry (agentAssignment tpl.id) none tpl (some .group))) agents

/-- `resolveForAgent`. -/
def resolveTemplatesForAgent (deviceId : Nat) (groupIds : List Nat) : List ResolvedEntry :=
  (resolveForAgents coll db [⟨deviceId, groupIds⟩] deviceId).getD []

/-- `getResolvedForDevice` of a device in the given group. -/
def getResolvedForDevice (deviceId : Nat) (groupId : Option Nat) : List ResolvedEntry :=
  resolveTemplatesForAgent coll db deviceId (match groupId with
    | some g => ancestorGroupIds db g
    | none => [])

/-- An entry of `getResolvedForGroup`. -/
def groupEntry (group : Option ServiceTemplateAssignmentRow) (tpl : ServiceTemplateRow) : ResolvedEntry where
  templateId := tpl.id
  name := tpl.name
  serviceType := tpl.serviceType
  isBuiltin := tpl.isBuiltin
  logPath := (group.bind (·.logPathOverride)).or tpl.defaultLogPath
  customRegex := tpl.customRegex
  threshold := (group.bind (·.thresholdOverride)).getD tpl.threshold
  windowSeconds := (group.bind (·.windowSecondsOverride)).getD tpl.windowSeconds
  enabled := (group.bind (·.enabledOverride)).getD tpl.enabled
  mode := tpl.mode
  sampleRequested := false
  enabledOverrideScope := if (group.bind (·.enabledOverride)).isSome then some .group else none
  templateOwnerScope := none
  thresholdOverrideScope := if (group.bind (·.thresholdOverride)).isSome then some .group else none
  thresholdOverride := group.bind (·.thresholdOverride)
  windowSecondsOverride := group.bind (·.windowSecondsOverride)

/-- `getResolvedForGroup` on the rows of its queries, which have no order. -/
def getResolvedForGroup (groupIds : List Nat) (globalTemplates : List ServiceTemplateRow)
    (allGroupAssignments : List ServiceTemplateAssignmentRow) : List ResolvedEntry :=
  if globalTemplates = [] then []
  else
    let rows := if groupIds = [] then [] else allGroupAssignments
    sortEntries coll (globalTemplates.map fun tpl =>
      groupEntry (firstAssignment (fun g => rows.filter fun r => r.scopeId = g) groupIds tpl.id) tpl)

end resolve

/-! ## Look-ups -/

section lookups
variable {α β κ : Type} [DecidableEq κ] {key : α → κ} {value : α → β}

theorem indexBy_eq_some {rows : List α} (hnodup : (rows.map key).Nodup) {k : κ} {b : β} :
    indexBy key value rows k = some b ↔ ∃ r ∈ rows, key r = k ∧ value r = b := by
  induction rows using List.reverseRecOn with
  | nil => exact iff_of_false nofun fun ⟨_, h, _⟩ => nomatch h
  | append_singleton rows r ih =>
    rw [List.map_append, List.nodup_append] at hnodup
    obtain ⟨hinit, -, hfresh⟩ := hnodup
    rw [indexBy, List.foldl_append, List.foldl_cons, List.foldl_nil, ← indexBy]
    by_cases hk : key r = k
    · rw [← hk, Function.update_self]
      constructor
      · intro h
        exact ⟨r, by simp, rfl, Option.some.inj h⟩
      · rintro ⟨r', hr', hkey, rfl⟩
        rcases List.mem_append.mp hr' with hr' | hr'
        · exact absurd hkey (hfresh _ (List.mem_map_of_mem hr') _ (by simp))
        · rw [List.mem_singleton.mp hr']
    · rw [Function.update_of_ne (Ne.symm hk), ih hinit]
      refine exists_congr fun r' => and_congr_left fun h => ?_
      rw [List.mem_append, List.mem_singleton]
      refine ⟨.inl, fun hmem => hmem.resolve_right ?_⟩
      rintro rfl
      exact hk h.1

end lookups

section direct
variable (db : TemplateDb)

/-- The assignment of an agent to a template. -/
def agentAssignment (deviceId templateId : Nat) : Option ServiceTemplateAssignmentRow :=
  db.assignments.find (templateId, .agent, deviceId)

/-- The assignment of the nearest group of a chain that has one. -/
def nearestAssignment (groupIds : List Nat) (templateId : Nat) : Option ServiceTemplateAssignmentRow :=
  groupIds.findSome? fun g => db.assignments.find (templateId, .group, g)

def globalEntry (a : AgentTemplateScope) (tpl : ServiceTemplateRow) : ResolvedEntry :=
  buildResolvedEntry (agentAssignment db a.deviceId tpl.id) (nearestAssignment db a.groupIds tpl.id) tpl none

def ownedEntry (a : AgentTemplateScope) (tpl : ServiceTemplateRow) : ResolvedEntry :=
  buildResolvedEntry (agentAssignment db a.deviceId tpl.id) none tpl (some .group)

/-- The templates of the agent's direct group. -/
def ownedTemplates (a : AgentTemplateScope) : List ServiceTemplateRow :=
  match a.groupIds.head? with
  | some g => orderById (selectOwned db [g])
  | none => []

/-- The entries of an agent, each looked up by itself. -/
def directEntries (a : AgentTemplateScope) : List ResolvedEntry :=
  (orderById (selectGlobal db)).map (globalEntry db a) ++ (ownedTemplates db a).map (ownedEntry db a)

end direct

section queries
variable {db : TemplateDb} {scope : TemplateScope} {scopeIds templateIds groupIds : List Nat}
  {deviceId templateId : Nat} {rows : List ServiceTemplateAssignmentRow}

theorem perm_orderById (l : List ServiceTemplateRow) : (orderById l).Perm l := List.perm_insertionSort _ l

@[simp] theorem mem_orderById {l : List ServiceTemplateRow} {t : ServiceTemplateRow} : t ∈ orderById l ↔ t ∈ l :=
  (perm_orderById l).mem_iff

@[simp] theorem mem_orderAssignments {l : List ServiceTemplateAssignmentRow} {r : ServiceTemplateAssignmentRow} :
    r ∈ orderAssignments l ↔ r ∈ l :=
  (List.perm_insertionSort _ l).mem_iff

theorem mem_selectAssignments {r : ServiceTemplateAssignmentRow} :
    r ∈ selectAssignments db scope scopeIds templateIds ↔
      r ∈ db.assignments.rows ∧ r.scope = scope ∧ r.scopeId ∈ scopeIds ∧ r.templateId ∈ templateIds := by
  rw [selectAssignments, List.mem_filter, decide_eq_true_eq]

theorem find?_eq_find {α κ : Type} [DecidableEq κ] {key : α → κ} {t : Keyed key} {k : κ} {l : List α}
    {p : α → Bool} (h : ∀ r, r ∈ l ∧ p r = true ↔ r ∈ t.rows ∧ key r = k) : l.find? p = t.find k := by
  cases hfind : t.find k with
  | none =>
    rw [List.find?_eq_none]
    intro r hr hp
    obtain ⟨hmem, hkey⟩ := (h r).mp ⟨hr, hp⟩
    exact Keyed.find_eq_none.mp hfind r hmem hkey
  | some r =>
    cases hl : l.find? p with
    | none =>
      obtain ⟨hr, hp⟩ := (h r).mpr (Keyed.find_eq_some.mp hfind)
      exact absurd hp (List.find?_eq_none.mp hl r hr)
    | some r' =>
      have hr' := (h r').mp ⟨List.mem_of_find?_eq_some hl, List.find?_some hl⟩
      rw [← hfind, Keyed.find_eq_some.mpr hr']

theorem eq_orderById {l l' : List ServiceTemplateRow} (hperm : l'.Perm l)
    (hsorted : l'.Pairwise fun a b => a.id ≤ b.id) (hnodup : (l.map (·.id)).Nodup) : l' = orderById l := by
  have htotal : Std.Total fun a b : ServiceTemplateRow => a.id ≤ b.id := ⟨fun a b => Nat.le_total a.id b.id⟩
  have htrans : IsTrans ServiceTemplateRow fun a b => a.id ≤ b.id := ⟨fun _ _ _ => Nat.le_trans⟩
  have horder := hperm.trans (perm_orderById l).symm
  refine horder.eq_of_pairwise ?_ hsorted (List.pairwise_insertionSort _ l)
  intro a b ha hb hab hba
  exact List.inj_on_of_nodup_map hnodup (hperm.mem_iff.mp ha) (mem_orderById.mp hb) (Nat.le_antisymm hab hba)

theorem pairwise_orderById (l : List ServiceTemplateRow) : (orderById l).Pairwise fun a b => a.id ≤ b.id := by
  have htotal : Std.Total fun a b : ServiceTemplateRow => a.id ≤ b.id := ⟨fun a b => Nat.le_total a.id b.id⟩
  have htrans : IsTrans ServiceTemplateRow fun a b => a.id ≤ b.id := ⟨fun _ _ _ => Nat.le_trans⟩
  exact List.pairwise_insertionSort _ l

theorem filter_selectOwned {g : Nat} (hg : g ∈ groupIds) :
    (orderById (selectOwned db groupIds)).filter (fun t => t.ownerScopeId = some g) =
      orderById (selectOwned db [g]) := by
  have hfilter : (selectOwned db groupIds).filter (fun t => t.ownerScopeId = some g) = selectOwned db [g] := by
    rw [selectOwned, selectOwned, List.filter_filter]
    refine List.filter_congr fun t _ => ?_
    rw [← Bool.decide_and]
    refine decide_eq_decide.mpr ⟨fun h => ?_, fun h => ?_⟩
    · exact ⟨h.2.1, g, List.mem_singleton_self g, h.1⟩
    · obtain ⟨hscope, g', hg', hid⟩ := h
      rw [List.mem_singleton.mp hg'] at hid
      exact ⟨hid, hscope, g, hg, hid⟩
  refine eq_orderById ?_ ((pairwise_orderById _).filter _) ?_
  · rw [← hfilter]
    exact (perm_orderById _).filter _
  · exact db.templates.nodup.sublist (List.filter_sublist.map _)

theorem indexBy_assignments (hdevice : deviceId ∈ scopeIds) (htemplate : templateId ∈ templateIds) :
    indexBy (fun r => (r.scopeId, r.templateId)) id
        (orderAssignments (selectAssignments db .agent scopeIds templateIds)) (deviceId, templateId) =
      agentAssignment db deviceId templateId := by
  have hnodup : ((orderAssignments (selectAssignments db .agent scopeIds templateIds)).map
      fun r => (r.scopeId, r.templateId)).Nodup := by
    have hperm := List.perm_insertionSort (fun a b : ServiceTemplateAssignmentRow => a.id ≤ b.id)
      (selectAssignments db .agent scopeIds templateIds)
    rw [orderAssignments, (hperm.map _).nodup_iff]
    refine List.Nodup.map_on ?_ ((db.assignments.nodup.of_map _).filter _)
    intro r hr r' hr' heq
    obtain ⟨hmem, hscope, -⟩ := mem_selectAssignments.mp hr
    obtain ⟨hmem', hscope', -⟩ := mem_selectAssignments.mp hr'
    obtain ⟨hid, htpl⟩ := Prod.mk.inj heq
    refine List.inj_on_of_nodup_map db.assignments.nodup hmem hmem' ?_
    rw [ServiceTemplateAssignmentRow.key, ServiceTemplateAssignmentRow.key, hid, htpl, hscope, hscope']
  refine Option.ext fun r => ?_
  rw [indexBy_eq_some hnodup, agentAssignment, Keyed.find_eq_some]
  constructor
  · rintro ⟨r', hr', heq, rfl⟩
    obtain ⟨hmem, hscope, -⟩ := mem_selectAssignments.mp (mem_orderAssignments.mp hr')
    obtain ⟨hid, htpl⟩ := Prod.mk.inj heq
    refine ⟨hmem, ?_⟩
    rw [ServiceTemplateAssignmentRow.key, id, hid, htpl, hscope]
  · rintro ⟨hmem, hkey⟩
    obtain ⟨htpl, hkey⟩ := Prod.mk.inj hkey
    obtain ⟨hscope, hid⟩ := Prod.mk.inj hkey
    refine ⟨r, mem_orderAssignments.mpr (mem_selectAssignments.mpr ⟨hmem, hscope, ?_, ?_⟩), ?_, rfl⟩
    · rwa [hid]
    · rwa [htpl]
    · rw [hid, htpl]

theorem firstAssignment_nearest (hrows : ∀ r, r ∈ rows ↔ r ∈ selectAssignments db .group scopeIds templateIds)
    (hgroups : ∀ g ∈ groupIds, g ∈ scopeIds) (htemplate : templateId ∈ templateIds) :
    firstAssignment (fun g => rows.filter fun r => r.scopeId = g) groupIds templateId =
      nearestAssignment db groupIds templateId := by
  have hgroup : ∀ g ∈ scopeIds, (rows.filter fun r => r.scopeId = g).find? (fun r => r.templateId = templateId) =
      db.assignments.find (templateId, .group, g) := by
    intro g hg
    refine find?_eq_find fun r => ?_
    rw [List.mem_filter, hrows, mem_selectAssignments, decide_eq_true_eq, decide_eq_true_eq]
    constructor
    · rintro ⟨⟨⟨hmem, hscope, -, -⟩, hid⟩, htpl⟩
      refine ⟨hmem, ?_⟩
      rw [ServiceTemplateAssignmentRow.key, hid, htpl, hscope]
    · rintro ⟨hmem, hkey⟩
      obtain ⟨htpl, hkey⟩ := Prod.mk.inj hkey
      obtain ⟨hscope, hid⟩ := Prod.mk.inj hkey
      refine ⟨⟨⟨hmem, hscope, ?_, ?_⟩, hid⟩, htpl⟩
      · rwa [hid]
      · rwa [htpl]
  rw [firstAssignment, List.find?_flatMap, nearestAssignment]
  induction groupIds with
  | nil => rfl
  | cons g gs ih =>
    rw [List.findSome?_cons, List.findSome?_cons, hgroup g (hgroups g List.mem_cons_self),
      ih fun g' hg' => hgroups g' (List.mem_cons_of_mem g hg')]

end queries

/-! ## The batch and the single agent -/

section batch
variable {coll : Collation} {db : TemplateDb} {agents : List AgentTemplateScope} {a : AgentTemplateScope}

/-- The templates owned by the agent's direct group, among those of all direct groups. -/
theorem ownedTemplates_of_mem (db : TemplateDb) (ha : a ∈ agents) :
    (match a.groupIds.head? with
      | some g => (orderById (selectOwned db (agents.filterMap (·.groupIds.head?)).dedup)).filter
          fun t => t.ownerScopeId = some g
      | none => []) = ownedTemplates db a := by
  rw [ownedTemplates]
  cases hhead : a.groupIds.head? with
  | none => rfl
  | some g => exact filter_selectOwned (List.mem_dedup.mpr (List.mem_filterMap.mpr ⟨a, ha, hhead⟩))

theorem resolveForAgents_eq (hdistinct : (agents.map (·.deviceId)).Nodup) (ha : a ∈ agents) :
    resolveForAgents coll db agents a.deviceId = some (sortEntries coll (directEntries db a)) := by
  have howned := ownedTemplates_of_mem db ha
  unfold resolveForAgents
  dsimp only
  split
  · rename_i hempty
    rw [indexBy_eq_some hdistinct]
    refine ⟨a, ha, rfl, ?_⟩
    have hnone : ownedTemplates db a = [] := by
      rw [← howned, hempty.2]
      split <;> rfl
    rw [directEntries, hempty.1, hnone]
    rfl
  · rw [indexBy_eq_some hdistinct]
    refine ⟨a, ha, rfl, ?_⟩
    rw [howned, directEntries]
    have hdevice : a.deviceId ∈ (agents.map (·.deviceId)).dedup :=
      List.mem_dedup.mpr (List.mem_map_of_mem ha)
    have hgroups : ∀ g ∈ a.groupIds, g ∈ (agents.flatMap (·.groupIds)).dedup := fun g hg =>
      List.mem_dedup.mpr (List.mem_flatMap.mpr ⟨a, ha, hg⟩)
    congr 2
    · refine List.map_congr_left fun tpl htpl => ?_
      have hid : tpl.id ∈ (orderById (selectGlobal db)).map (·.id) := List.mem_map_of_mem htpl
      rw [globalEntry, indexBy_assignments hdevice (by rw [List.map_append]; exact List.mem_append_left _ hid)]
      congr 1
      split
      · exact firstAssignment_nearest (fun r => mem_orderAssignments) hgroups hid
      · rename_i hnone
        -- no group at all: there is a template
        have hchain : a.groupIds = [] := by
          rw [List.eq_nil_iff_forall_not_mem]
          intro g hg
          exact hnone ⟨List.ne_nil_of_mem (hgroups g hg), List.ne_nil_of_mem hid⟩
        rw [hchain]
        rfl
    · refine List.map_congr_left fun tpl htpl => ?_
      rw [ownedEntry, indexBy_assignments hdevice]
      rw [List.map_append]
      refine List.mem_append_right _ (List.mem_map_of_mem ?_)
      rw [← howned] at htpl
      split at htpl
      · exact List.mem_of_mem_filter htpl
      · contradiction

theorem resolveForAgent_eq (coll : Collation) (db : TemplateDb) (a : AgentTemplateScope) :
    resolveTemplatesForAgent coll db a.deviceId a.groupIds = sortEntries coll (directEntries db a) := by
  have hone : ([a].map (·.deviceId)).Nodup := List.nodup_singleton _
  rw [resolveTemplatesForAgent, resolveForAgents_eq hone (List.mem_singleton_self a), Option.getD_some]

end batch

theorem resolveForAgent_configs (coll : Collation) (db : TemplateDb) (a : AgentTemplateScope) :
    (resolveTemplatesForAgent coll db a.deviceId a.groupIds).map ResolvedEntry.toResolvedServiceConfig =
      sortResolved coll ((directEntries db a).map ResolvedEntry.toResolvedServiceConfig) := by
  rw [resolveForAgent_eq, map_sortEntries]

/-! ## What an entry is made of -/

/-- The template is global, or owned by the direct group of the agent. -/
def Applies (a : AgentTemplateScope) (tpl : ServiceTemplateRow) : Prop :=
  tpl.ownerScope = none ∨ tpl.ownerScope = some .group ∧ tpl.ownerScopeId ≠ none ∧
    tpl.ownerScopeId = a.groupIds.head?

/-- The value of a field: the agent's assignment if it sets it, else, for a global template, the assignment of
the nearest group that has one if that sets it, else the template. -/
def effective {α : Type} (db : TemplateDb) (a : AgentTemplateScope) (tpl : ServiceTemplateRow)
    (f : ServiceTemplateAssignmentRow → Option α) (fallback : α) : α :=
  match (agentAssignment db a.deviceId tpl.id).bind f with
  | some v => v
  | none =>
    if tpl.ownerScope = none then ((nearestAssignment db a.groupIds tpl.id).bind f).getD fallback else fallback

structure EntryOf (db : TemplateDb) (a : AgentTemplateScope) (tpl : ServiceTemplateRow) (e : ResolvedEntry) : Prop where
  templateId : e.templateId = tpl.id
  name : e.name = tpl.name
  serviceType : e.serviceType = tpl.serviceType
  customRegex : e.customRegex = tpl.customRegex
  mode : e.mode = tpl.mode
  owner : e.templateOwnerScope = tpl.ownerScope
  logPath : e.logPath = effective db a tpl (fun r => r.logPathOverride.map some) tpl.defaultLogPath
  threshold : e.threshold = effective db a tpl (·.thresholdOverride) tpl.threshold
  windowSeconds : e.windowSeconds = effective db a tpl (·.windowSecondsOverride) tpl.windowSeconds
  enabled : e.enabled = effective db a tpl (·.enabledOverride) tpl.enabled

/-- One entry for each template that applies. -/
structure Resolution (db : TemplateDb) (a : AgentTemplateScope) (resolved : List ResolvedEntry) : Prop where
  distinct : (resolved.map fun e => e.templateId).Nodup
  complete : ∀ tpl ∈ db.templates.rows, Applies a tpl → ∃ e ∈ resolved, EntryOf db a tpl e
  sound : ∀ e ∈ resolved, ∃ tpl ∈ db.templates.rows, Applies a tpl ∧ EntryOf db a tpl e

section resolution
variable {coll : Collation} {db : TemplateDb} {a : AgentTemplateScope} {tpl : ServiceTemplateRow}

theorem overridden_global {α : Type} (h : tpl.ownerScope = none) (f : ServiceTemplateAssignmentRow → Option α)
    (fallback : α) : overridden (agentAssignment db a.deviceId tpl.id) (nearestAssignment db a.groupIds tpl.id) f
      fallback = effective db a tpl f fallback := by
  rw [overridden, effective, if_pos h]
  cases (agentAssignment db a.deviceId tpl.id).bind f with
  | none => rw [Option.none_or]
  | some v => rw [Option.some_or, Option.getD_some]

theorem overridden_owned {α : Type} (h : tpl.ownerScope ≠ none) (f : ServiceTemplateAssignmentRow → Option α)
    (fallback : α) : overridden (agentAssignment db a.deviceId tpl.id) none f fallback =
      effective db a tpl f fallback := by
  rw [overridden, effective, if_neg h]
  cases (agentAssignment db a.deviceId tpl.id).bind f with
  | none => rfl
  | some v => rw [Option.some_or, Option.getD_some]

theorem entryOf_global (h : tpl.ownerScope = none) : EntryOf db a tpl (globalEntry db a tpl) where
  templateId := rfl
  name := rfl
  serviceType := rfl
  customRegex := rfl
  mode := rfl
  owner := h.symm
  logPath := overridden_global h _ _
  threshold := overridden_global h _ _
  windowSeconds := overridden_global h _ _
  enabled := overridden_global h _ _

theorem entryOf_owned (h : tpl.ownerScope = some .group) : EntryOf db a tpl (ownedEntry db a tpl) where
  templateId := rfl
  name := rfl
  serviceType := rfl
  customRegex := rfl
  mode := rfl
  owner := h.symm
  logPath := overridden_owned (by rw [h]; exact nofun) _ _
  threshold := overridden_owned (by rw [h]; exact nofun) _ _
  windowSeconds := overridden_owned (by rw [h]; exact nofun) _ _
  enabled := overridden_owned (by rw [h]; exact nofun) _ _

theorem mem_selectGlobal : tpl ∈ selectGlobal db ↔ tpl ∈ db.templates.rows ∧ tpl.ownerScope = none := by
  rw [selectGlobal, List.mem_filter, decide_eq_true_eq]

theorem mem_ownedTemplates : tpl ∈ ownedTemplates db a ↔ tpl ∈ db.templates.rows ∧
    tpl.ownerScope = some .group ∧ tpl.ownerScopeId ≠ none ∧ tpl.ownerScopeId = a.groupIds.head? := by
  rw [ownedTemplates]
  cases a.groupIds.head? with
  | none => exact iff_of_false List.not_mem_nil fun h => h.2.2.1 h.2.2.2
  | some g =>
    rw [mem_orderById, selectOwned, List.mem_filter, decide_eq_true_eq]
    refine and_congr_right fun _ => and_congr_right fun _ => ?_
    constructor
    · rintro ⟨g', hg', hid⟩
      rw [List.mem_singleton.mp hg'] at hid
      exact ⟨by rw [hid]; exact nofun, hid⟩
    · rintro ⟨-, hid⟩
      exact ⟨g, List.mem_singleton_self g, hid⟩

theorem nodup_ownedTemplates : ((ownedTemplates db a).map (·.id)).Nodup := by
  rw [ownedTemplates]
  split
  · rw [((perm_orderById _).map _).nodup_iff]
    exact db.templates.nodup.sublist (List.filter_sublist.map _)
  · exact List.nodup_nil

theorem nodup_globalTemplates : ((orderById (selectGlobal db)).map (·.id)).Nodup := by
  rw [((perm_orderById _).map _).nodup_iff]
  exact db.templates.nodup.sublist (List.filter_sublist.map _)

theorem nodup_directEntries : ((directEntries db a).map fun e => e.templateId).Nodup := by
  rw [directEntries, List.map_append, List.map_map, List.map_map]
  refine List.nodup_append.mpr ⟨nodup_globalTemplates, nodup_ownedTemplates, ?_⟩
  rintro i hi j hj rfl
  obtain ⟨tpl, htpl, hid⟩ := List.mem_map.mp hi
  obtain ⟨tpl', htpl', hid'⟩ := List.mem_map.mp hj
  obtain ⟨hmem, hglobal⟩ := mem_selectGlobal.mp (mem_orderById.mp htpl)
  obtain ⟨hmem', howned, -⟩ := mem_ownedTemplates.mp htpl'
  have hsame : tpl = tpl' := List.inj_on_of_nodup_map db.templates.nodup hmem hmem' (hid.trans hid'.symm)
  rw [hsame, howned] at hglobal
  contradiction

theorem perm_sortEntries (coll : Collation) (resolved : List ResolvedEntry) :
    (sortEntries coll resolved).Perm resolved :=
  List.perm_insertionSort _ _

theorem resolution_direct : Resolution db a (sortEntries coll (directEntries db a)) := by
  have hperm := perm_sortEntries coll (directEntries db a)
  refine ⟨?_, ?_, ?_⟩
  · rw [(hperm.map _).nodup_iff]
    exact nodup_directEntries
  · rintro tpl htpl (hglobal | howned)
    · refine ⟨globalEntry db a tpl, hperm.mem_iff.mpr (List.mem_append_left _ (List.mem_map_of_mem ?_)),
        entryOf_global hglobal⟩
      exact mem_orderById.mpr (mem_selectGlobal.mpr ⟨htpl, hglobal⟩)
    · refine ⟨ownedEntry db a tpl, hperm.mem_iff.mpr (List.mem_append_right _ (List.mem_map_of_mem ?_)),
        entryOf_owned howned.1⟩
      exact mem_ownedTemplates.mpr ⟨htpl, howned⟩
  · intro e he
    rcases List.mem_append.mp (hperm.mem_iff.mp he) with he | he
    · obtain ⟨tpl, htpl, rfl⟩ := List.mem_map.mp he
      obtain ⟨hmem, hglobal⟩ := mem_selectGlobal.mp (mem_orderById.mp htpl)
      exact ⟨tpl, hmem, .inl hglobal, entryOf_global hglobal⟩
    · obtain ⟨tpl, htpl, rfl⟩ := List.mem_map.mp he
      obtain ⟨hmem, howned⟩ := mem_ownedTemplates.mp htpl
      exact ⟨tpl, hmem, .inr howned, entryOf_owned howned.1⟩

end resolution

/-! ## The view of a group -/

section group
variable {coll : Collation} {db : TemplateDb} {a : AgentTemplateScope} {globalTemplates : List ServiceTemplateRow}
  {rows : List ServiceTemplateAssignmentRow}

theorem groupEntry_eq (group : Option ServiceTemplateAssignmentRow) (tpl : ServiceTemplateRow) :
    groupEntry group tpl = buildResolvedEntry none group tpl none := by
  cases group with
  | none => rfl
  | some r =>
    obtain ⟨id, templateId, scope, scopeId, log, threshold, window, enabled, sample⟩ := r
    cases log <;> rfl

/-- The agent has no assignment of its own. -/
def Unassigned (db : TemplateDb) (deviceId : Nat) : Prop :=
  ∀ r ∈ db.assignments.rows, r.scope = .agent → r.scopeId ≠ deviceId

theorem agentAssignment_none (h : Unassigned db a.deviceId) (templateId : Nat) :
    agentAssignment db a.deviceId templateId = none := by
  rw [agentAssignment, Keyed.find_eq_none]
  intro r hr hkey
  obtain ⟨-, hkey⟩ := Prod.mk.inj hkey
  obtain ⟨hscope, hid⟩ := Prod.mk.inj hkey
  exact h r hr hscope hid

theorem filter_directEntries : (directEntries db a).filter (fun e => e.templateOwnerScope = none) =
    (orderById (selectGlobal db)).map (globalEntry db a) := by
  have hglobal : ∀ e ∈ (orderById (selectGlobal db)).map (globalEntry db a), e.templateOwnerScope = none := by
    rintro e he
    obtain ⟨tpl, -, rfl⟩ := List.mem_map.mp he
    rfl
  have howned : ∀ e ∈ (ownedTemplates db a).map (ownedEntry db a), e.templateOwnerScope ≠ none := by
    rintro e he
    obtain ⟨tpl, -, rfl⟩ := List.mem_map.mp he
    exact nofun
  rw [directEntries, List.filter_append, List.filter_eq_self.mpr fun e he => decide_eq_true (hglobal e he),
    List.filter_eq_nil_iff.mpr fun e he => by simpa using howned e he, List.append_nil]

/-- Whatever the order of the rows of its queries, the group view has the global entries of an agent of the
group without assignments of its own. -/
theorem getResolvedForGroup_perm (htemplates : globalTemplates.Perm (selectGlobal db))
    (hrows : rows.Perm (selectAssignments db .group a.groupIds (globalTemplates.map (·.id))))
    (h : Unassigned db a.deviceId) :
    (getResolvedForGroup coll a.groupIds globalTemplates rows).Perm
      ((sortEntries coll (directEntries db a)).filter fun e => e.templateOwnerScope = none) := by
  have hentries : globalTemplates.map (globalEntry db a) = globalTemplates.map fun tpl =>
      groupEntry (firstAssignment (fun g => rows.filter fun r => r.scopeId = g) a.groupIds tpl.id) tpl := by
    refine List.map_congr_left fun tpl htpl => ?_
    rw [groupEntry_eq, globalEntry, agentAssignment_none h,
      firstAssignment_nearest (fun r => hrows.mem_iff) (fun g hg => hg) (List.mem_map_of_mem htpl)]
  have hview : (getResolvedForGroup coll a.groupIds globalTemplates rows).Perm
      (globalTemplates.map (globalEntry db a)) := by
    rw [getResolvedForGroup]
    split
    · rename_i hnone
      rw [hnone]
      exact List.Perm.refl []
    · refine (perm_sortEntries coll _).trans ?_
      rw [hentries]
      refine List.Perm.of_eq (List.map_congr_left fun tpl _ => ?_)
      split
      · rename_i hchain
        rw [hchain]
        rfl
      · rfl
  refine hview.trans ?_
  have hfilter := (perm_sortEntries coll (directEntries db a)).filter fun e => e.templateOwnerScope = none
  rw [filter_directEntries] at hfilter
  exact ((htemplates.trans (perm_orderById _).symm).map _).trans hfilter.symm

end group

/-- Each agent of a batch of distinct agents gets what it gets alone: one entry for each template that applies to
it, made of the assignments as `EntryOf` says. The view of a group has, in whatever order its queries answer, the
entries of the global templates of an agent directly in the group that has no assignment of its own. -/
theorem batch_resolved (coll : Collation) (db : TemplateDb) (agents : List AgentTemplateScope)
    (hdistinct : (agents.map (·.deviceId)).Nodup) :
    (∀ a ∈ agents, resolveForAgents coll db agents a.deviceId =
        some (resolveTemplatesForAgent coll db a.deviceId a.groupIds) ∧
      Resolution db a (resolveTemplatesForAgent coll db a.deviceId a.groupIds)) ∧
      ∀ g deviceId globalTemplates rows, globalTemplates.Perm (selectGlobal db) →
        rows.Perm (selectAssignments db .group (ancestorGroupIds db g) (globalTemplates.map (·.id))) →
          Unassigned db deviceId →
            (getResolvedForGroup coll (ancestorGroupIds db g) globalTemplates rows).Perm
              ((getResolvedForDevice coll db deviceId (some g)).filter fun e => e.templateOwnerScope = none) := by
  refine ⟨fun a ha => ?_, fun g deviceId globalTemplates rows htemplates hrows h => ?_⟩
  · rw [resolveForAgents_eq hdistinct ha, resolveForAgent_eq]
    exact ⟨rfl, resolution_direct⟩
  · have halone := resolveForAgent_eq coll db ⟨deviceId, ancestorGroupIds db g⟩
    rw [getResolvedForDevice, halone]
    exact getResolvedForGroup_perm (a := ⟨deviceId, ancestorGroupIds db g⟩) htemplates hrows h

/-! ## Two agents -/

/-- A global template and one of group 10; group 20 and agent 7 override the former, field by field. -/
def sampleTemplateDb : TemplateDb where
  templates := ⟨[⟨1, "SSH", "ssh", true, none, none, 5, 300, false, .ban, none, none⟩,
    ⟨2, "Panel", "custom", false, some "/var/log/panel.log", none, 3, 60, true, .track, some .group, some 10⟩],
    by decide⟩
  assignments := ⟨[⟨1, 1, .group, 20, none, some 8, none, some true, false⟩,
    ⟨2, 1, .agent, 7, none, none, some 600, none, true⟩], by decide⟩
  closure := [⟨10, 10, 0⟩, ⟨20, 20, 0⟩, ⟨20, 10, 1⟩]

def sampleAgents : List AgentTemplateScope := [⟨7, [10, 20]⟩, ⟨8, []⟩]

example : (resolveForAgents plainCollation sampleTemplateDb sampleAgents 7).map (List.map fun e =>
    (e.templateId, e.threshold, e.windowSeconds, e.enabled)) = some [(2, 3, 60, true), (1, 8, 600, true)] := by
  decide +kernel

theorem batch_resolved_two :
    resolveForAgents plainCollation sampleTemplateDb sampleAgents 7 =
        some (resolveTemplatesForAgent plainCollation sampleTemplateDb 7 [10, 20]) ∧
      (getResolvedForGroup plainCollation (ancestorGroupIds sampleTemplateDb 10) (selectGlobal sampleTemplateDb)
          (selectAssignments sampleTemplateDb .group (ancestorGroupIds sampleTemplateDb 10) [1])).Perm
        ((getResolvedForDevice plainCollation sampleTemplateDb 9 (some 10)).filter
          fun e => e.templateOwnerScope = none) := by
  have h := batch_resolved plainCollation sampleTemplateDb sampleAgents (by decide)
  exact ⟨(h.1 _ List.mem_cons_self).1, h.2 10 9 _ _ (List.Perm.refl _) (List.Perm.refl _)
    (by unfold Unassigned; decide)⟩

end Obliguard.Server

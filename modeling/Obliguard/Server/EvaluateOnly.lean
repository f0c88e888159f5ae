import Mathlib.Data.List.Sort
import Obliguard.Server.GroupService
import Obliguard.Server.TenantIsolation

/-!
# Evaluate-only devices

Whether a device is in a dry run is decided three times, each over the group closure: `evaluateThresholds` of
`ban.service.ts` leaves out the devices it only observes, `evalStateFor` of `agent.service.ts` hydrates the devices
that `handlePush` and `resolveFullBanList` answer, and the settings cascade of `agentConfig.service.ts` resolves the
value that is shown.

The first two count every flagged group above the device (`engineSkips_iff`, `evaluateOnly_iff`), the cascade those
of the device's own tenant (`cascade_iff`).
-/

namespace Obliguard.Server

open Forest

/-- The tables, with the columns that are read here beside those of `Db`. -/
structure DryRunDb extends Db where
  groupName : Nat → String
  /-- `monitor_groups.evaluate_only`. -/
  groupEvaluateOnly : Nat → Bool
  /-- `agent_devices.evaluate_only`. -/
  deviceEvaluateOnly : Nat → Bool
  /-- The device's status is `approved`. -/
  approved : Nat → Bool
  tenantName : Nat → Option String

/-- The flagged groups. -/
def evalOnlyGroups (db : DryRunDb) : List Nat :=
  (db.groups.rows.filter fun g => db.groupEvaluateOnly g.id).map (·.id)

/-- `ORDER BY descendant_id, depth`. -/
def orderClosure (rows : List Closure) : List Closure :=
  rows.insertionSort fun a b => a.descendantId < b.descendantId ∨ a.descendantId = b.descendantId ∧ a.depth ≤ b.depth

/-! ## The BanEngine -/

/-- `ancestryOf`: the ancestries of the devices' groups, in one query. -/
def engineAncestry (db : DryRunDb) (devices : List Device) : Nat → Option (List Nat) :=
  let directGroupIds := distinct (devices.filterMap (·.groupId))
  if directGroupIds = [] then fun _ => none else
    collect (·.descendantId) (·.ancestorId) (orderClosure (db.closure.filter fun c => c.descendantId ∈ directGroupIds))

def engineGroupIds (ancestryOf : Nat → Option (List Nat)) (dev : Device) : List Nat :=
  match dev.groupId with
  | some g => if g = 0 then [] else (ancestryOf g).getD []
  | none => []

/-- The devices that `evaluateThresholds` goes on with, with their group ancestries. -/
def observed (db : DryRunDb) : List (Device × List Nat) :=
  let devices := db.devices.rows.filter fun dev => db.approved dev.id
  (devices.map fun dev => (dev, engineGroupIds (engineAncestry db devices) dev)).filter fun o =>
    !db.deviceEvaluateOnly o.1.id && !o.2.any fun g => decide (g ∈ evalOnlyGroups db)

/-- The engine creates no ban from the events of an approved device. -/
def engineSkips (db : DryRunDb) (d : Device) : Bool := !(observed db).any fun o => o.1.id = d.id

/-! ## Delivery -/

/-- The flagged groups and all that is below them. -/
def getEvaluateOnlyGroupIds (db : DryRunDb) : List Nat :=
  let flagged := evalOnlyGroups db
  if flagged = [] then [] else (db.closure.filter fun c => c.ancestorId ∈ flagged).map (·.descendantId)

inductive EvalSource
  | agent
  | group
deriving DecidableEq

structure EvalState where
  evaluateOnly : Bool
  source : Option EvalSource
deriving DecidableEq

def evalStateFor (db : DryRunDb) (row : Device) (evalGroupIds : List Nat) : EvalState :=
  if db.deviceEvaluateOnly row.id then ⟨true, some .agent⟩
  else if row.groupId.any fun g => decide (g ∈ evalGroupIds) then ⟨true, some .group⟩
  else ⟨false, none⟩

/-- `AgentDevice.evaluateOnly` of a hydrated row. -/
def evaluateOnly (db : DryRunDb) (d : Device) : Bool := (evalStateFor db d (getEvaluateOnlyGroupIds db)).evaluateOnly

/-- The ban delta of `handlePush`. -/
def pushedDelta (db : DryRunDb) (now : Int) (d : Device) (firewallBanned : List String) (cidr : Option Bool) :
    BanDelta :=
  if evaluateOnly db d then ⟨[], firewallBanned⟩
  else computeBanDelta db.toDb now d.id (groupChain db.toDb d) d.tenantId firewallBanned cidr

def resolveFullBanList (db : DryRunDb) (now : Int) (deviceId : Nat) : Option (List String) :=
  (db.devices.find deviceId).map fun d =>
    if evaluateOnly db d then []
    else (computeBanDelta db.toDb now deviceId (groupChain db.toDb d) d.tenantId [] none).add

/-! ## The settings cascade -/

inductive SettingLevel
  | global
  | tenant
  | group
  | agent
deriving DecidableEq

/-- One level of a chain. -/
structure ChainLevel where
  level : SettingLevel
  scopeId : Option Nat
  name : String
  evaluateOnly : Bool

/-- A resolved value with its source, `none` for the default. -/
structure ResolvedFlag where
  value : Bool
  source : Option SettingLevel
  sourceId : Option Nat
  sourceName : String
deriving DecidableEq

structure GroupInfo where
  name : String
  tenantId : Nat
  evaluateOnly : Bool

/-- What `loadSnapshot` keeps of the groups and the tenants. -/
structure ChainSnapshot where
  groups : Nat → Option GroupInfo
  ancestry : Nat → Option (List Nat)
  tenants : Nat → Option String

def loadChains (db : DryRunDb) : ChainSnapshot where
  groups := fun id => (db.groups.find id).map fun g => ⟨db.groupName id, g.tenantId, db.groupEvaluateOnly id⟩
  ancestry := collect (·.descendantId) (·.ancestorId) (orderClosure db.closure)
  tenants := db.tenantName

/-- `resolveChain` at the key `evaluateOnly`: the last flagged level, farthest first. -/
def resolveChain (chain : List ChainLevel) : ResolvedFlag :=
  match chain.foldl (fun hit lvl => if lvl.evaluateOnly then some lvl else hit) none with
  | some hit => ⟨true, some hit.level, hit.scopeId, hit.name⟩
  | none => ⟨false, none, none, "Default"⟩

def globalLevel : ChainLevel := ⟨.global, none, "Global", false⟩

def tenantLevel (snap : ChainSnapshot) (tenantId : Nat) : ChainLevel :=
  ⟨.tenant, some tenantId, (snap.tenants tenantId).getD ("Tenant " ++ toString tenantId), false⟩

/-- The level of a group, if it belongs to the tenant. -/
def groupLevel (snap : ChainSnapshot) (tenantId id : Nat) : Option ChainLevel :=
  (snap.groups id).bind fun g =>
    if g.tenantId ≠ tenantId then none else some ⟨.group, some id, g.name, g.evaluateOnly⟩

def groupLevels (snap : ChainSnapshot) (groupId : Option Nat) (tenantId : Nat) : List ChainLevel :=
  match groupId with
  | none => []
  | some groupId => ((snap.ancestry groupId).getD [groupId]).reverse.filterMap (groupLevel snap tenantId)

def deviceChain (db : DryRunDb) (snap : ChainSnapshot) (d : Device) : List ChainLevel :=
  [globalLevel, tenantLevel snap d.tenantId] ++ groupLevels snap d.groupId d.tenantId ++
    [⟨.agent, some d.id, "This agent", db.deviceEvaluateOnly d.id⟩]

/-- `resolveForDevice`. -/
def resolveForDevice (db : DryRunDb) (d : Device) : ResolvedFlag := resolveChain (deviceChain db (loadChains db) d)

/-! ## What each of them counts -/

/-- The closure holds the paths of a forest of the groups. -/
def GroupForest (db : DryRunDb) (parent : Nat → Option Nat) : Prop :=
  PathTable (fun k => ∃ g ∈ db.groups.rows, g.id = k) parent fun a d n => ⟨a, d, n⟩ ∈ db.closure

/-- A flagged group at or above the group of the device. -/
structure Flagged (db : DryRunDb) (parent : Nat → Option Nat) (d : Device) (g : Group) : Prop where
  exists_group : g ∈ db.groups.rows
  flagged : db.groupEvaluateOnly g.id = true
  above : ∃ k, d.groupId = some k ∧ Below parent g.id k

section forest
variable {db : DryRunDb} {parent : Nat → Option Nat} {d : Device} {g : Group} {k : Nat}

theorem mem_evalOnlyGroups {a : Nat} :
    a ∈ evalOnlyGroups db ↔ ∃ g ∈ db.groups.rows, db.groupEvaluateOnly g.id = true ∧ g.id = a := by
  rw [evalOnlyGroups, List.mem_map]
  simp only [List.mem_filter, and_assoc]

theorem mem_orderClosure {rows : List Closure} {c : Closure} : c ∈ orderClosure rows ↔ c ∈ rows :=
  List.mem_insertionSort _

theorem exists_link_iff (h : GroupForest db parent) (hg : g ∈ db.groups.rows) :
    (∃ c ∈ db.closure, c.ancestorId = g.id ∧ c.descendantId = k) ↔ Below parent g.id k := by
  have hlink := h.exists_link (x := g.id) (d := k)
  constructor
  · rintro ⟨⟨a, d, n⟩, hc, rfl, rfl⟩
    exact (hlink.mp ⟨n, hc⟩).2
  · intro hbelow
    obtain ⟨n, hn⟩ := hlink.mpr ⟨h.node_of_below ⟨g, hg, rfl⟩ hbelow, hbelow⟩
    exact ⟨_, hn, rfl, rfl⟩

theorem mem_engineGroupIds {devices : List Device} {a : Nat} (hd : d ∈ devices) :
    a ∈ engineGroupIds (engineAncestry db devices) d ↔ ∃ k, d.groupId = some k ∧ k ≠ 0 ∧
      ∃ c ∈ db.closure, c.ancestorId = a ∧ c.descendantId = k := by
  rw [engineGroupIds]
  split
  · rename_i k hk
    have hdirect : k ∈ distinct (devices.filterMap (·.groupId)) :=
      mem_distinct.mpr (List.mem_filterMap.mpr ⟨d, hd, hk⟩)
    rw [hk]
    split
    · rename_i hzero
      refine iff_of_false List.not_mem_nil ?_
      rintro ⟨k', heq, hne, -⟩
      exact hne (Option.some.inj heq ▸ hzero)
    · rename_i hzero
      rw [engineAncestry, if_neg (List.ne_nil_of_mem hdirect), getD_collect, mem_valuesOf]
      constructor
      · rintro ⟨c, hc, hdesc, hanc⟩
        rw [mem_orderClosure, List.mem_filter] at hc
        exact ⟨k, rfl, hzero, c, hc.1, hanc, hdesc⟩
      · rintro ⟨k', heq, -, c, hc, hanc, hdesc⟩
        obtain rfl := Option.some.inj heq
        refine ⟨c, mem_orderClosure.mpr (List.mem_filter.mpr ⟨hc, ?_⟩), hdesc, hanc⟩
        rw [hdesc]
        exact decide_eq_true hdirect
  · rename_i hk
    rw [hk]
    refine iff_of_false List.not_mem_nil ?_
    rintro ⟨k, heq, -⟩
    contradiction

theorem any_engineGroupIds (h : GroupForest db parent) {devices : List Device} (hd : d ∈ devices) :
    ((engineGroupIds (engineAncestry db devices) d).any fun g => decide (g ∈ evalOnlyGroups db)) = true ↔
      ∃ g, Flagged db parent d g := by
  rw [List.any_eq_true]
  constructor
  · rintro ⟨a, ha, hflag⟩
    rw [decide_eq_true_eq, mem_evalOnlyGroups] at hflag
    obtain ⟨g, hg, hflagged, rfl⟩ := hflag
    obtain ⟨k, hk, -, hlink⟩ := (mem_engineGroupIds hd).mp ha
    exact ⟨g, hg, hflagged, k, hk, (exists_link_iff h hg).mp hlink⟩
  · rintro ⟨g, hg, hflagged, k, hk, hbelow⟩
    refine ⟨g.id, (mem_engineGroupIds hd).mpr ⟨k, hk, ?_, (exists_link_iff h hg).mpr hbelow⟩, ?_⟩
    · obtain ⟨g', hg', hid⟩ := h.node_of_below ⟨g, hg, rfl⟩ hbelow
      have := db.groups.bounds g' hg'
      omega
    · exact decide_eq_true (mem_evalOnlyGroups.mpr ⟨g, hg, hflagged, rfl⟩)

theorem engineSkips_iff (h : GroupForest db parent) (hd : d ∈ db.devices.rows) (happroved : db.approved d.id = true) :
    engineSkips db d = true ↔ db.deviceEvaluateOnly d.id = true ∨ ∃ g, Flagged db parent d g := by
  have hmem : d ∈ db.devices.rows.filter fun dev => db.approved dev.id := List.mem_filter.mpr ⟨hd, happroved⟩
  have hobserved : ((observed db).any fun o => decide (o.1.id = d.id)) = true ↔
      ¬ (db.deviceEvaluateOnly d.id = true ∨ ∃ g, Flagged db parent d g) := by
    rw [← any_engineGroupIds h hmem, not_or, Bool.not_eq_true, Bool.not_eq_true, List.any_eq_true]
    constructor
    · rintro ⟨o, ho, hid⟩
      obtain ⟨hmap, hskip⟩ := List.mem_filter.mp ho
      obtain ⟨dev, hdev, rfl⟩ := List.mem_map.mp hmap
      obtain rfl := Table.eq_of_key (List.mem_of_mem_filter hdev) hd (of_decide_eq_true hid)
      rw [Bool.and_eq_true, Bool.not_eq_true', Bool.not_eq_true'] at hskip
      exact hskip
    · rintro ⟨hflag, hgroups⟩
      refine ⟨_, List.mem_filter.mpr ⟨List.mem_map.mpr ⟨d, hmem, rfl⟩, ?_⟩, decide_eq_true rfl⟩
      rw [hflag, hgroups]
      rfl
  rw [engineSkips, Bool.not_eq_true', ← Bool.not_eq_true, hobserved, not_not]

theorem mem_getEvaluateOnlyGroupIds : k ∈ getEvaluateOnlyGroupIds db ↔
    ∃ c ∈ db.closure, c.ancestorId ∈ evalOnlyGroups db ∧ c.descendantId = k := by
  rw [getEvaluateOnlyGroupIds]
  split
  · rename_i hnil
    rw [hnil]
    exact iff_of_false List.not_mem_nil fun ⟨c, _, hc, _⟩ => List.not_mem_nil hc
  · rw [List.mem_map]
    simp only [List.mem_filter, decide_eq_true_eq, and_assoc]

theorem evaluateOnly_iff (h : GroupForest db parent) :
    evaluateOnly db d = true ↔ db.deviceEvaluateOnly d.id = true ∨ ∃ g, Flagged db parent d g := by
  have hgroup : d.groupId.any (fun k => decide (k ∈ getEvaluateOnlyGroupIds db)) = true ↔
      ∃ g, Flagged db parent d g := by
    rw [Option.any_eq_true]
    constructor
    · rintro ⟨k, hk, hmem⟩
      obtain ⟨c, hc, hanc, hdesc⟩ := mem_getEvaluateOnlyGroupIds.mp (of_decide_eq_true hmem)
      obtain ⟨g, hg, hflagged, hid⟩ := mem_evalOnlyGroups.mp hanc
      exact ⟨g, hg, hflagged, k, hk, (exists_link_iff h hg).mp ⟨c, hc, hid.symm, hdesc⟩⟩
    · rintro ⟨g, hg, hflagged, k, hk, hbelow⟩
      obtain ⟨c, hc, hid, hdesc⟩ := (exists_link_iff h hg).mpr hbelow
      refine ⟨k, hk, decide_eq_true (mem_getEvaluateOnlyGroupIds.mpr ⟨c, hc, ?_, hdesc⟩)⟩
      exact mem_evalOnlyGroups.mpr ⟨g, hg, hflagged, hid.symm⟩
  rw [evaluateOnly, evalStateFor, ← hgroup]
  split
  · rename_i hflag
    exact iff_of_true rfl (.inl hflag)
  · rename_i hflag
    rw [or_iff_right hflag]
    split
    · rename_i hany
      exact iff_of_true rfl hany
    · rename_i hany
      exact iff_of_false Bool.false_ne_true hany

theorem resolveChain_value (chain : List ChainLevel) : (resolveChain chain).value = chain.any (·.evaluateOnly) := by
  have hfold : ∀ hit : Option ChainLevel,
      (chain.foldl (fun hit lvl => if lvl.evaluateOnly then some lvl else hit) hit).isSome =
        (hit.isSome || chain.any (·.evaluateOnly)) := by
    induction chain with
    | nil => exact fun hit => (Bool.or_false _).symm
    | cons lvl chain ih =>
      intro hit
      rw [List.foldl_cons, ih, List.any_cons]
      cases lvl.evaluateOnly with
      | true => rw [if_pos rfl, Option.isSome_some, Bool.true_or, Bool.or_true]
      | false => rw [if_neg Bool.false_ne_true, Bool.false_or]
  have hnone := hfold none
  rw [Option.isSome_none, Bool.false_or] at hnone
  rw [resolveChain, ← hnone]
  cases chain.foldl (fun hit lvl => if lvl.evaluateOnly then some lvl else hit) none with
  | none => rfl
  | some hit => rfl

theorem groupLevel_eq_some {tenantId id : Nat} {lvl : ChainLevel} :
    groupLevel (loadChains db) tenantId id = some lvl ↔ ∃ g ∈ db.groups.rows, g.id = id ∧ g.tenantId = tenantId ∧
      ⟨.group, some id, db.groupName id, db.groupEvaluateOnly id⟩ = lvl := by
  rw [groupLevel, loadChains, Option.bind_eq_some_iff]
  constructor
  · rintro ⟨info, hinfo, hlvl⟩
    obtain ⟨g, hg, rfl⟩ := Option.map_eq_some_iff.mp hinfo
    rw [Table.find_eq_some] at hg
    split at hlvl
    · contradiction
    · rename_i htenant
      exact ⟨g, hg.1, hg.2, not_not.mp htenant, Option.some.inj hlvl⟩
  · rintro ⟨g, hg, hid, htenant, rfl⟩
    exact ⟨_, Option.map_eq_some_iff.mpr ⟨g, Table.find_eq_some.mpr ⟨hg, hid⟩, rfl⟩,
      if_neg (not_not.mpr htenant)⟩

theorem mem_ancestry (h : GroupForest db parent) (hg : g ∈ db.groups.rows) :
    g.id ∈ ((loadChains db).ancestry k).getD [k] ↔ Below parent g.id k := by
  have hmem : g.id ∈ valuesOf (·.descendantId) (·.ancestorId) (orderClosure db.closure) k ↔ Below parent g.id k := by
    rw [mem_valuesOf, ← exists_link_iff h hg]
    simp only [mem_orderClosure, and_comm]
  have hancestry : (loadChains db).ancestry k =
      collect (·.descendantId) (·.ancestorId) (orderClosure db.closure) k := rfl
  rw [hancestry, collect_eq]
  split
  · rename_i hnil
    rw [hnil] at hmem
    rw [Option.getD_none, List.mem_singleton]
    refine iff_of_false (fun hk => ?_) (fun hbelow => List.not_mem_nil (hmem.mpr hbelow))
    exact List.not_mem_nil (hmem.mpr ⟨0, congrArg some hk.symm⟩)
  · exact hmem

theorem any_groupLevels (h : GroupForest db parent) (tenantId : Nat) :
    (groupLevels (loadChains db) d.groupId tenantId).any (·.evaluateOnly) = true ↔
      ∃ g, Flagged db parent d g ∧ g.tenantId = tenantId := by
  unfold groupLevels
  split
  · rename_i hk
    refine iff_of_false Bool.false_ne_true ?_
    rintro ⟨g, hflagged, -⟩
    obtain ⟨k, hk', -⟩ := hflagged.above
    exact absurd (hk.symm.trans hk') nofun
  · rename_i k hk
    rw [List.any_eq_true]
    constructor
    · rintro ⟨lvl, hlvl, hflag⟩
      obtain ⟨id, hid, hlevel⟩ := List.mem_filterMap.mp hlvl
      obtain ⟨g, hg, rfl, htenant, rfl⟩ := groupLevel_eq_some.mp hlevel
      exact ⟨g, ⟨hg, hflag, k, hk, (mem_ancestry h hg).mp (List.mem_reverse.mp hid)⟩, htenant⟩
    · rintro ⟨g, ⟨hg, hflag, k', hk', hbelow⟩, htenant⟩
      obtain rfl := Option.some.inj (hk.symm.trans hk')
      refine ⟨⟨.group, some g.id, db.groupName g.id, db.groupEvaluateOnly g.id⟩, ?_, hflag⟩
      exact List.mem_filterMap.mpr ⟨g.id, List.mem_reverse.mpr ((mem_ancestry h hg).mpr hbelow),
        groupLevel_eq_some.mpr ⟨g, hg, rfl, htenant, rfl⟩⟩

theorem cascade_iff (h : GroupForest db parent) : (resolveForDevice db d).value = true ↔
    db.deviceEvaluateOnly d.id = true ∨ ∃ g, Flagged db parent d g ∧ g.tenantId = d.tenantId := by
  rw [resolveForDevice, resolveChain_value, deviceChain, List.any_append, List.any_append, Bool.or_eq_true,
    Bool.or_eq_true, any_groupLevels h]
  have hhead : ([globalLevel, tenantLevel (loadChains db) d.tenantId].any (·.evaluateOnly)) = false := rfl
  rw [hhead, or_iff_right Bool.false_ne_true, List.any_cons, List.any_nil, Bool.or_false]
  exact or_comm

end forest

/-- The engine and the delivery agree on every device. The cascade agrees with them unless the device is in a dry
run through groups of other tenants alone. -/
theorem dryRun_agrees (db : DryRunDb) (parent : Nat → Option Nat) (hforest : GroupForest db parent) (d : Device)
    (hd : d ∈ db.devices.rows) :
    (db.approved d.id = true → engineSkips db d = evaluateOnly db d ∧
      (∀ now firewallBanned cidr, pushedDelta db now d firewallBanned cidr =
        if engineSkips db d then ⟨[], firewallBanned⟩
        else computeBanDelta db.toDb now d.id (groupChain db.toDb d) d.tenantId firewallBanned cidr) ∧
      ∀ now, resolveFullBanList db now d.id = some (if engineSkips db d then []
        else (computeBanDelta db.toDb now d.id (groupChain db.toDb d) d.tenantId [] none).add)) ∧
    ((resolveForDevice db d).value = evaluateOnly db d ↔ db.deviceEvaluateOnly d.id = true ∨
      (∃ g, Flagged db parent d g ∧ g.tenantId = d.tenantId) ∨
        ∀ g, Flagged db parent d g → g.tenantId = d.tenantId) := by
  constructor
  · intro happroved
    have hskips : engineSkips db d = evaluateOnly db d := by
      rw [Bool.eq_iff_iff, engineSkips_iff hforest hd happroved, evaluateOnly_iff hforest]
    rw [hskips]
    refine ⟨rfl, fun now firewallBanned cidr => rfl, fun now => ?_⟩
    rw [resolveFullBanList, Table.find_eq_some.mpr ⟨hd, rfl⟩, Option.map_some]
  · rw [Bool.eq_iff_iff, cascade_iff hforest, evaluateOnly_iff hforest]
    constructor
    · intro hagree
      by_cases hflag : db.deviceEvaluateOnly d.id = true
      · exact .inl hflag
      · rw [or_iff_right hflag, or_iff_right hflag] at hagree
        by_cases hany : ∃ g, Flagged db parent d g
        · exact .inr (.inl (hagree.mpr hany))
        · exact .inr (.inr fun g hg => absurd ⟨g, hg⟩ hany)
    · rintro (hflag | ⟨g, hg, htenant⟩ | hown)
      · exact iff_of_true (.inl hflag) (.inl hflag)
      · exact iff_of_true (.inr ⟨g, hg, htenant⟩) (.inr ⟨g, hg⟩)
      · exact or_congr_right ⟨fun ⟨g, hg, _⟩ => ⟨g, hg⟩, fun ⟨g, hg⟩ => ⟨g, hg, hown g hg⟩⟩

theorem groupForest_of_correct {db : DryRunDb} {groups : GroupDb} (h : groups.Correct)
    (hclosure : db.closure = groups.closure.rows)
    (hids : db.groups.rows.map (·.id) = groups.groups.rows.map (·.id)) : GroupForest db groups.parentOf := by
  have hnode : (fun k => ∃ g ∈ db.groups.rows, g.id = k) = groups.Has := by
    funext k
    rw [eq_iff_iff, ← List.mem_map, hids, List.mem_map]
    rfl
  rw [GroupForest, hnode, hclosure]
  exact h.pathTable

/-- A flagged group of the Default tenant with a group of another tenant below it, and a device in the latter. -/
def nestedDb : DryRunDb where
  toDb := { Db.empty with
    devices := ⟨[⟨1, 2, some 2, []⟩], 2, by decide, Nat.two_pos, by decide⟩
    groups := ⟨[⟨1, 1⟩, ⟨2, 2⟩], 3, by decide, Table.three_pos, by decide⟩
    closure := (groupsAfter [.create none, .create (some 1)]).closure.rows }
  groupName := fun id => if id = 1 then "Default group" else "Customer group"
  groupEvaluateOnly := fun id => id = 1
  deviceEvaluateOnly := fun _ => false
  approved := fun _ => true
  tenantName := fun _ => none

theorem groupForest_nestedDb :
    GroupForest nestedDb (groupsAfter [.create none, .create (some 1)]).parentOf :=
  groupForest_of_correct (correct_groupsAfter _) rfl (by decide +kernel)

theorem dryRun_agrees_nestedDb : engineSkips nestedDb ⟨1, 2, some 2, []⟩ = evaluateOnly nestedDb ⟨1, 2, some 2, []⟩ :=
  ((dryRun_agrees nestedDb _ groupForest_nestedDb ⟨1, 2, some 2, []⟩ (by decide)).1 rfl).1

/-- The BanEngine and the delivery take the device for evaluate-only, the cascade does not. -/
theorem dryRun_disagrees : ∃ parent, GroupForest nestedDb parent ∧
    engineSkips nestedDb ⟨1, 2, some 2, []⟩ = true ∧ evaluateOnly nestedDb ⟨1, 2, some 2, []⟩ = true ∧
      resolveForDevice nestedDb ⟨1, 2, some 2, []⟩ = ⟨false, none, none, "Default"⟩ :=
  ⟨_, groupForest_nestedDb, by decide +kernel, by decide +kernel, by decide +kernel⟩

end Obliguard.Server

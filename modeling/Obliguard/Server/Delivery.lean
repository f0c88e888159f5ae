import Obliguard.Server.Schema

/-!
# Delivery of bans

`computeBanDelta` of `server/src/services/ban.service.ts` with the whitelist predicates of
`whitelist.service.ts` it applies. A query without `ORDER BY` returns its rows in the order of the
table; nothing below depends on it.

`mem_add` and `mem_remove` say what a delta holds, `wanted_iff` what is wanted, and
`resolveWhitelistForAgent_iff` that the whitelist sent to an agent is the set of entries that the
SQL of `whereWhitelistApplies` takes for applicable.
-/

namespace Obliguard.Server

open Bans IpValidation Text

/-! ## The whitelist -/

/-- `WhitelistMatchContext`. -/
structure WhitelistMatchContext where
  tenantId : Option Nat := none
  groupIds : List Nat := []
  deviceId : Option Nat := none

/-- `whereWhitelistApplies`: the whitelist rows applying to a context. Group and agent rows count
only when they belong to the tenant. -/
def whitelistApplies (ctx : WhitelistMatchContext) (w : WhitelistRow) : Bool :=
  match w.scope, ctx.tenantId with
  | .global, _ => true
  | _, none => false
  | .tenant, some t => w.tenantId == some t
  | .group, some t => ctx.groupIds.any (fun g => w.scopeId == some g) && w.tenantId == some t
  | .agent, some t => ctx.deviceId.any (fun d => w.scopeId == some d) && w.tenantId == some t

/-- The rows of one scope, oldest first, as `resolveWhitelistForAgent` reads them. -/
def whitelistRows (db : Db) (p : WhitelistRow → Bool) : List Net :=
  ((db.whitelist.rows.filter p).mergeSort fun a b => decide (a.createdAt ≤ b.createdAt)).map (·.ip)

/-- `resolveWhitelistForAgent`: the entries applicable to an agent, agent first, then its groups
from the closest on, then the tenant's and the global ones, without repetition. -/
def resolveWhitelistForAgent (db : Db) (deviceId : Nat) (groupIds : List Nat) (tenantId : Nat) :
    List Net :=
  distinct <|
    whitelistRows db (fun w => w.scope == .agent && w.scopeId == some deviceId &&
      w.tenantId == some tenantId) ++
    groupIds.flatMap (fun g => whitelistRows db fun w => w.scope == .group && w.scopeId == some g &&
      w.tenantId == some tenantId) ++
    whitelistRows db (fun w => w.scope == .tenant && w.tenantId == some tenantId) ++
    whitelistRows db (fun w => w.scope == .global)

theorem mem_whitelistRows {db : Db} {p : WhitelistRow → Bool} {n : Net} :
    n ∈ whitelistRows db p ↔ ∃ w ∈ db.whitelist.rows, p w = true ∧ w.ip = n := by
  simp [whitelistRows, and_assoc]

/-- The entries sent to an agent are the applicable ones. -/
theorem resolveWhitelistForAgent_iff {db : Db} {deviceId : Nat} {groupIds : List Nat}
    {tenantId : Nat} {n : Net} : n ∈ resolveWhitelistForAgent db deviceId groupIds tenantId ↔
      ∃ w ∈ db.whitelist.rows, whitelistApplies ⟨some tenantId, groupIds, some deviceId⟩ w = true ∧
        w.ip = n := by
  simp only [resolveWhitelistForAgent, mem_distinct, List.mem_append, List.mem_flatMap,
    mem_whitelistRows]
  constructor
  · rintro (((⟨w, hw, hp, rfl⟩ | ⟨g, hg, w, hw, hp, rfl⟩) | ⟨w, hw, hp, rfl⟩) | ⟨w, hw, hp, rfl⟩)
    · refine ⟨w, hw, ?_, rfl⟩
      simp only [Bool.and_eq_true, beq_iff_eq] at hp
      simp [whitelistApplies, hp]
    · refine ⟨w, hw, ?_, rfl⟩
      simp only [Bool.and_eq_true, beq_iff_eq] at hp
      simp [whitelistApplies, hp, hg]
    · refine ⟨w, hw, ?_, rfl⟩
      simp only [Bool.and_eq_true, beq_iff_eq] at hp
      simp [whitelistApplies, hp]
    · refine ⟨w, hw, ?_, rfl⟩
      simp only [beq_iff_eq] at hp
      simp [whitelistApplies, hp]
  · rintro ⟨w, hw, hp, rfl⟩
    cases hs : w.scope with
    | global => exact Or.inr ⟨w, hw, by simp [hs], rfl⟩
    | tenant =>
      simp only [whitelistApplies, hs] at hp
      exact Or.inl (Or.inr ⟨w, hw, by simpa [hs] using hp, rfl⟩)
    | group =>
      simp only [whitelistApplies, hs, Bool.and_eq_true, List.any_eq_true] at hp
      obtain ⟨⟨g, hg, hid⟩, ht⟩ := hp
      exact Or.inl (Or.inl (Or.inr ⟨g, hg, w, hw, by simp [hs, hid, ht], rfl⟩))
    | agent =>
      simp only [whitelistApplies, hs, Bool.and_eq_true, Option.any_some] at hp
      exact Or.inl (Or.inl (Or.inl ⟨w, hw, by simp [hs, hp.1, hp.2], rfl⟩))

/-! ## The delta -/

/-- `AGENT_CAPABILITY_CIDR`. -/
def agentCapabilityCidr : String := "cidr"

/-- `hasCapability`. -/
def hasCapability (capabilities : List String) (cap : String) : Bool := capabilities.contains cap

/-- Whether the device enforces `a.b.c.d/nn` entries: the option of the call, else its capability. -/
def enforcesCidr (db : Db) (deviceId : Nat) (cidr : Option Bool) : Bool :=
  match cidr with
  | some c => c
  | none => (db.devices.find deviceId).any fun d => hasCapability d.capabilities agentCapabilityCidr

/-- The scopes a device is subject to: group and agent rows only through their owning tenant. -/
def banApplies (deviceId : Nat) (groupIds : List Nat) (tenantId : Nat) (b : BanRow) : Bool :=
  match b.scope with
  | .global => true
  | .tenant => b.tenantId == some tenantId
  | .group => groupIds.any (fun g => b.scopeId == some g) && b.tenantId == some tenantId
  | .agent => b.scopeId == some deviceId && b.tenantId == some tenantId

/-- The tenant opted out of this ban. -/
def isExcluded (db : Db) (tenantId : Nat) (b : BanRow) : Bool :=
  db.exclusions.any fun ex => ex.banId == b.id && ex.tenantId == tenantId

/-- Covered by an applicable whitelist entry (`w.ip` contains the whole target). -/
def isCovered (db : Db) (ctx : WhitelistMatchContext) (b : BanRow) : Bool :=
  db.whitelist.rows.any fun w => (Inet.ofNet w.ip).contains b.target.networkSql &&
    whitelistApplies ctx w

/-- The bans of the query of `computeBanDelta` that are not unsafe. -/
def deliverable (db : Db) (now : Int) (deviceId : Nat) (groupIds : List Nat) (tenantId : Nat)
    (b : BanRow) : Bool :=
  b.isActive && b.unexpired now && banApplies deviceId groupIds tenantId b &&
    !isExcluded db tenantId b && !isCovered db ⟨some tenantId, groupIds, some deviceId⟩ b &&
    !db.unsafeIds.contains b.id

/-- The text of one ban: the target, or the network address for a device without subnets. -/
def deliveredText (cidr : Bool) (b : BanRow) : Option String :=
  b.target.rowTarget.map fun p => if cidr then targetText p else p.address

/-- The texts a device has to enforce. -/
def wanted (db : Db) (now : Int) (deviceId : Nat) (groupIds : List Nat) (tenantId : Nat)
    (cidr : Bool) : List String :=
  distinct ((db.bans.rows.filter (deliverable db now deviceId groupIds tenantId)).filterMap
    (deliveredText cidr))

/-- The comparison key of a reported text. -/
def reportedKey (raw : String) : String :=
  match parseIpOrCidr raw with
  | some p => targetText p
  | none => raw

structure BanDelta where
  add : List String
  remove : List String

/-- The delta between what is wanted and what the device reports. -/
def deltaOf (wanted agentCurrentBans : List String) : BanDelta where
  add := wanted.filter fun text => !decide (text ∈ agentCurrentBans.map reportedKey)
  remove := distinct (agentCurrentBans.filter fun raw => !decide (reportedKey raw ∈ wanted))

/-- `computeBanDelta`. -/
def computeBanDelta (db : Db) (now : Int) (deviceId : Nat) (groupIds : List Nat) (tenantId : Nat)
    (agentCurrentBans : List String) (cidr : Option Bool) : BanDelta :=
  deltaOf (wanted db now deviceId groupIds tenantId (enforcesCidr db deviceId cidr)) agentCurrentBans

theorem mem_add {wanted current : List String} {t : String} :
    t ∈ (deltaOf wanted current).add ↔ t ∈ wanted ∧ ∀ r ∈ current, reportedKey r ≠ t := by
  simp [deltaOf]

theorem mem_remove {wanted current : List String} {t : String} :
    t ∈ (deltaOf wanted current).remove ↔ t ∈ current ∧ reportedKey t ∉ wanted := by
  simp [deltaOf]

/-! ## Delivered networks -/

/-- The network a text names. -/
def netOfText (t : String) : Option Net := readTarget (jsTrim t.toList)

/-- The network delivered for a stored target. -/
def deliveredNet (cidr : Bool) (s : Stored) : Option Net :=
  (targetOf s.networkSql.host s.effectivePrefix s.effectivePrefix_le).map fun n =>
    if cidr then n else Net.ofHost n.family n.addr n.addr_lt

theorem ofHost_not_mapped {n : Net} (h : ¬ n.IsMapped) :
    ¬ (Net.ofHost n.family n.addr n.addr_lt).IsMapped := by
  intro hm
  refine h ⟨hm.1, ?_⟩
  have := hm.2
  simpa [Net.ofHost, Net.ofAddr] using this

theorem text_ofHost (n : Net) : (Net.ofHost n.family n.addr n.addr_lt).text = n.first.text := by
  have hhost : (Net.ofHost n.family n.addr n.addr_lt).IsHost := rfl
  have hfirst : (Net.ofHost n.family n.addr n.addr_lt).first = n.first := by
    simp [Net.first, Net.ofHost, Net.ofAddr]
  rw [Net.text, if_pos hhost, hfirst]

theorem deliveredText_eq (cidr : Bool) (b : BanRow) :
    deliveredText cidr b = (deliveredNet cidr b.target).map fun n => String.ofList n.text := by
  rw [deliveredText, Stored.rowTarget_eq, deliveredNet, Option.map_map, Option.map_map]
  congr 1
  funext n
  cases cidr with
  | false =>
    simp only [Function.comp_apply, Bool.false_eq_true, if_false, text_ofHost]
    rfl
  | true => simp only [Function.comp_apply, if_true, targetText_parsedOf]

theorem deliveredNet_not_mapped {cidr : Bool} {s : Stored} {n : Net}
    (h : deliveredNet cidr s = some n) : ¬ n.IsMapped := by
  obtain ⟨m, hm, rfl⟩ := Option.map_eq_some_iff.mp h
  have := targetOf_not_mapped hm
  split
  · exact this
  · exact ofHost_not_mapped this

section wanted
variable {db : Db} {now : Int} {deviceId : Nat} {groupIds : List Nat} {tenantId : Nat} {cidr : Bool}

theorem wanted_iff {t : String} : t ∈ wanted db now deviceId groupIds tenantId cidr ↔
    ∃ b ∈ db.bans.rows, deliverable db now deviceId groupIds tenantId b = true ∧
      ∃ n, deliveredNet cidr b.target = some n ∧ String.ofList n.text = t := by
  simp only [wanted, mem_distinct, List.mem_filterMap, List.mem_filter, deliveredText_eq,
    Option.map_eq_some_iff, and_assoc]

theorem wanted_canonical {t : String} (h : t ∈ wanted db now deviceId groupIds tenantId cidr) :
    ∃ n : Net, ¬ n.IsMapped ∧ t = String.ofList n.text := by
  obtain ⟨b, -, -, n, hn, rfl⟩ := wanted_iff.mp h
  exact ⟨n, deliveredNet_not_mapped hn, rfl⟩

end wanted

theorem netOfText_text {n : Net} (h : ¬ n.IsMapped) : netOfText (String.ofList n.text) = some n := by
  rw [netOfText, String.toList_ofList, jsTrim_text h, readTarget_text h]

theorem netOfText_of_reportedKey {r : String} {n : Net} (hn : ¬ n.IsMapped)
    (h : reportedKey r = String.ofList n.text) : netOfText r = some n := by
  rw [reportedKey] at h
  cases hp : parseIpOrCidr r with
  | none =>
    rw [hp] at h
    simp only at h
    rw [h, parseIpOrCidr_text hn] at hp
    contradiction
  | some p =>
    rw [hp] at h
    obtain ⟨m, hm, hread, rfl⟩ := exists_net_of_parse hp
    simp only [targetText_parsedOf, String.ofList_inj] at h
    rw [netOfText, hread, Net.text_injective hm hn h]

end Obliguard.Server

import Obliguard.Server.Requests

/-!
# Tenant isolation of enforcement

No operator request on a tenant other than Default changes what the devices of another tenant
enforce. `SameOutside tenant now db db'` says that the two states agree on everything that delivery
reads for a device of another tenant from the instant `now` on; every request keeps it
(`request_sameOutside`), and delivery depends on nothing else (`computeBanDelta_congr`).
-/

namespace Obliguard.Server

open Bans IpValidation

/-- The group chain of a device, from its own group up, as the callers of `computeBanDelta` read
it. -/
def groupChain (db : Db) (d : Device) : List Nat :=
  match d.groupId with
  | none => []
  | some g => ((db.closure.filter fun c => c.descendantId == g).mergeSort
      fun a b => decide (a.depth ≤ b.depth)).map (·.ancestorId)

/-- Every device's group chain lies in the device's own tenant. -/
def ChainsInTenant (db : Db) : Prop :=
  ∀ d ∈ db.devices.rows, ∀ g ∈ groupChain db d, ∀ grp ∈ db.groups.rows, grp.id = g →
    grp.tenantId = d.tenantId

/-! ## What other tenants read -/

/-- A ban that a device of another tenant may have to enforce from `now` on. -/
def banMatters (tenant : Nat) (now : Int) (b : BanRow) : Bool :=
  b.isActive && b.unexpired now && (b.scope == .global || b.tenantId != some tenant)

/-- A whitelist entry that may apply to a device of another tenant. -/
def entryMatters (tenant : Nat) (db : Db) (w : WhitelistRow) : Bool :=
  w.scope == .global || (w.tenantId != some tenant && entryTarget db w != some tenant)

/-- The two states agree on all that delivery reads for the devices of other tenants. -/
structure SameOutside (tenant : Nat) (now : Int) (db db' : Db) : Prop where
  devices : db'.devices = db.devices
  groups : db'.groups = db.groups
  closure : db'.closure = db.closure
  unsafeIds : db'.unsafeIds = db.unsafeIds
  bans : db'.bans.rows.filter (banMatters tenant now) = db.bans.rows.filter (banMatters tenant now)
  exclusions : db'.exclusions.filter (fun ex => ex.tenantId != tenant) =
    db.exclusions.filter (fun ex => ex.tenantId != tenant)
  whitelist : db'.whitelist.rows.filter (entryMatters tenant db) =
    db.whitelist.rows.filter (entryMatters tenant db)

namespace SameOutside

variable {tenant : Nat} {now : Int} {db db' db'' : Db}

theorem refl (tenant : Nat) (now : Int) (db : Db) : SameOutside tenant now db db :=
  ⟨rfl, rfl, rfl, rfl, rfl, rfl, rfl⟩

theorem entryMatters_eq (h : SameOutside tenant now db db') :
    entryMatters tenant db' = entryMatters tenant db := by
  funext w
  simp only [entryMatters, entryTarget, resolveScopeTenant, h.devices, h.groups]

theorem trans (h1 : SameOutside tenant now db db') (h2 : SameOutside tenant now db' db'') :
    SameOutside tenant now db db'' where
  devices := h2.devices.trans h1.devices
  groups := h2.groups.trans h1.groups
  closure := h2.closure.trans h1.closure
  unsafeIds := h2.unsafeIds.trans h1.unsafeIds
  bans := h2.bans.trans h1.bans
  exclusions := h2.exclusions.trans h1.exclusions
  whitelist := by
    have h := h2.whitelist
    rw [h1.entryMatters_eq] at h
    exact h.trans h1.whitelist

end SameOutside

section requests
variable {tenant : Nat} {now : Int} {db : Db}

theorem sameOutside_deactivateBans {t : Int} {ids : List Nat} {reason : LiftReason}
    (h : ∀ b ∈ db.bans.rows, isHit ids b = true → banMatters tenant now b = false) :
    SameOutside tenant now db (deactivateBans db t ids reason).2 := by
  refine { SameOutside.refl tenant now db with bans := ?_ }
  rw [deactivateBans_bans]
  apply Table.filter_update
  intro b hb hhit
  exact ⟨h b hb hhit, by simp [banMatters, BanRow.deactivated]⟩

theorem expired_of_le {b : BanRow} {t : Int} (ht : t ≤ now) (h : b.expired t = true) :
    b.unexpired now = false := by
  cases he : b.expiresAt with
  | none => simp [BanRow.expired, he] at h
  | some e =>
    simp only [BanRow.expired, he, Option.any_some, decide_eq_true_eq] at h
    simp only [BanRow.unexpired, he, Option.all_some, decide_eq_false_iff_not]
    omega

theorem sameOutside_expireStale {t : Int} (ht : t ≤ now) (n : Net) :
    SameOutside tenant now db (expireStale db t n) := by
  apply sameOutside_deactivateBans
  intro b hb hhit
  simp only [isHit, Bool.and_eq_true, List.contains_eq_mem, decide_eq_true_eq, List.mem_map,
    List.mem_filter] at hhit
  obtain ⟨⟨⟨a, ⟨ha, ⟨-, hexp⟩⟩, hid⟩, -⟩, -⟩ := hhit
  rw [Table.eq_of_key ha hb hid] at hexp
  simp [banMatters, expired_of_le ht hexp]

theorem sameOutside_addExclusion {ex : Exclusion} (h : ex.tenantId = tenant) :
    SameOutside tenant now db (addExclusion db ex) := by
  rw [addExclusion]
  split
  · exact SameOutside.refl _ _ _
  · refine { SameOutside.refl tenant now db with exclusions := ?_ }
    simp [List.filter_append, h]

theorem ownedScope_tenant {tenantId : Nat} {scope : Scope} {sid : Option Int}
    {s : Scope × Option Nat × Option Nat} (h : ownedScope db tenantId scope sid = .ok s) :
    s.1 ≠ .global ∧ s.2.2 = some tenantId := by
  unfold ownedScope at h
  dsimp only at h
  repeat' split at h
  all_goals first | contradiction | skip
  all_goals
    rw [← Except.ok.inj h]
    exact ⟨by simp, rfl⟩

theorem banScope_tenant {tenantId : Nat} {req : CreateBanRequest}
    {s : Scope × Option Nat × Option Nat} (hm : isMasterTenant tenantId = false)
    (h : banScope db tenantId req = .ok s) : s.1 ≠ .global ∧ s.2.2 = some tenantId := by
  unfold banScope at h
  simp only [hm, Bool.false_eq_true, if_false] at h
  split at h
  · rw [← Except.ok.inj h]
    exact ⟨by simp, rfl⟩
  · contradiction
  · exact ownedScope_tenant h
  · exact ownedScope_tenant h
  · contradiction
  · rw [← Except.ok.inj h]
    exact ⟨by simp, rfl⟩

theorem createChecks_tenant {env : SafetyEnv} {c : Caller} {t : Int} {checked : Bool}
    {req : CreateBanRequest} {nb : NewBan} (hm : isMasterTenant c.tenantId = false)
    (h : createChecks env c t checked req db = .ok nb) :
    nb.scope ≠ .global ∧ nb.tenantId = some c.tenantId := by
  simp only [createChecks, bind_eq_ok] at h
  obtain ⟨-, -, -, -, target, -, s, hs, -, -, expiry, -, h⟩ := h
  rw [← Except.ok.inj h]
  exact banScope_tenant hm hs

theorem sameOutside_insertManual {c : Caller} {t : Int} {nb : NewBan}
    (hs : nb.scope ≠ .global) (ht : nb.tenantId = some tenant) :
    SameOutside tenant now db (insertManual c t nb db).2 := by
  unfold insertManual
  split
  · exact SameOutside.refl _ _ _
  · split
    · exact SameOutside.refl _ _ _
    · dsimp only
      split
      · exact SameOutside.refl _ _ _
      · refine { SameOutside.refl tenant now db with bans := ?_ }
        exact Table.filter_insert (manualRow_id c nb) (by simp [banMatters, manualRow, hs, ht])

theorem sameOutside_createBan {env : SafetyEnv} {c : Caller} {t : Int} {checked : Bool}
    {req : CreateBanRequest} (hm : isMasterTenant tenant = false) (hc : c.tenantId = tenant)
    (ht : t ≤ now) : SameOutside tenant now db (createBan env c t checked req db).2 := by
  unfold createBan
  split
  · exact SameOutside.refl _ _ _
  · rename_i nb hnb
    rw [← hc] at hm
    obtain ⟨hs, htn⟩ := createChecks_tenant hm hnb
    rw [hc] at htn
    exact (sameOutside_expireStale ht _).trans (sameOutside_insertManual hs htn)

theorem planLift_deactivate {b : BanRow} (hm : isMasterTenant tenant = false)
    (h : planLift b tenant = .deactivate) : banMatters tenant now b = false := by
  unfold planLift at h
  simp only [hm, Bool.false_eq_true, if_false] at h
  split at h
  · contradiction
  · split at h
    · split at h <;> contradiction
    · rename_i hscope
      split at h
      · contradiction
      · rename_i htenant
        rw [not_not] at htenant
        simp [banMatters, hscope, htenant]

theorem sameOutside_lift {c : Caller} {t : Int} {banId : Nat} (hm : isMasterTenant tenant = false)
    (hc : c.tenantId = tenant) : SameOutside tenant now db (lift c t banId db).2 := by
  unfold lift
  split
  · exact SameOutside.refl _ _ _
  · split
    · exact SameOutside.refl _ _ _
    · rename_i ban hban
      split
      · exact SameOutside.refl _ _ _
      · split
        · exact SameOutside.refl _ _ _
        · exact sameOutside_addExclusion hc
        · rename_i hplan
          rw [hc] at hplan
          apply sameOutside_deactivateBans
          intro b hb hhit
          simp only [isHit, Bool.and_eq_true, List.contains_eq_mem, List.mem_singleton,
            decide_eq_true_eq] at hhit
          obtain ⟨hfound, hid⟩ := Table.find_eq_some.mp hban
          rw [Table.eq_of_key hb hfound (hhit.1.1.trans hid.symm)]
          exact planLift_deactivate hm hplan

theorem mem_toDeactivate {c : Caller} (ids : List Nat) (acc : LiftBatch) {id : Nat}
    (h : id ∈ (ids.foldl (planBatch db c) acc).toDeactivate) : id ∈ acc.toDeactivate ∨
      ∃ ban ∈ db.bans.rows, ban.id = id ∧ planLift ban c.tenantId = .deactivate := by
  induction ids generalizing acc with
  | nil => exact Or.inl h
  | cons a ids ih =>
    rw [List.foldl_cons] at h
    rcases ih _ h with h | h
    · unfold planBatch at h
      split at h
      · exact Or.inl h
      · rename_i ban hban
        rw [writableBan, Option.filter_eq_some_iff] at hban
        obtain ⟨hfound, hid⟩ := Table.find_eq_some.mp hban.1
        split at h
        · exact Or.inl h
        · exact Or.inl h
        · rename_i hplan
          rcases List.mem_append.mp h with h | h
          · exact Or.inl h
          · rw [List.mem_singleton] at h
            exact Or.inr ⟨ban, hfound, hid.trans h.symm, hplan⟩
    · exact Or.inr h

theorem sameOutside_excludeBatch {c : Caller} (hc : c.tenantId = tenant) (bans : List BanRow)
    (r : BulkLiftResult) (db : Db) :
    SameOutside tenant now db (bans.foldl (excludeBatch c) (r, db)).2 ∧
      (bans.foldl (excludeBatch c) (r, db)).2.bans = db.bans := by
  induction bans generalizing r db with
  | nil => exact ⟨SameOutside.refl _ _ _, rfl⟩
  | cons b bans ih =>
    rw [List.foldl_cons]
    by_cases hany : (db.exclusions.any fun e => e.banId == b.id && e.tenantId == c.tenantId) = true
    · rw [show excludeBatch c (r, db) b = _ from if_pos hany]
      exact ih _ _
    · rw [show excludeBatch c (r, db) b = _ from if_neg hany]
      obtain ⟨h1, h2⟩ := ih { r with excluded := r.excluded + 1 }
        (addExclusion db ⟨b.id, c.tenantId, if c.userId > 0 then some c.userId else none⟩)
      refine ⟨(sameOutside_addExclusion hc).trans h1, h2.trans ?_⟩
      rw [addExclusion]
      split <;> rfl

theorem sameOutside_bulkLift {c : Caller} {t : Int} {ids : List Nat}
    (hm : isMasterTenant tenant = false) (hc : c.tenantId = tenant) :
    SameOutside tenant now db (bulkLift c t ids db).2 := by
  unfold bulkLift
  split
  · exact SameOutside.refl _ _ _
  · dsimp only
    obtain ⟨batch, hbatch⟩ : ∃ batch, batch = (distinct ids).foldl (planBatch db c)
      ⟨[], [], ⟨0, 0, 0, 0, []⟩⟩ := ⟨_, rfl⟩
    rw [← hbatch]
    obtain ⟨hex, hbans⟩ : SameOutside tenant now db _ ∧ _ :=
      sameOutside_excludeBatch hc batch.toExclude batch.result db
    refine hex.trans (sameOutside_deactivateBans ?_)
    intro b hb hhit
    rw [hbans] at hb
    simp only [isHit, Bool.and_eq_true, List.contains_eq_mem, decide_eq_true_eq] at hhit
    rw [hbatch] at hhit
    rcases mem_toDeactivate _ _ hhit.1.1 with h | ⟨ban, hban, hid, hplan⟩
    · contradiction
    · rw [Table.eq_of_key hb hban hid.symm]
      rw [hc] at hplan
      exact planLift_deactivate hm hplan

theorem sameOutside_excludeForTenant {c : Caller} {banId : Nat} (hc : c.tenantId = tenant) :
    SameOutside tenant now db (excludeForTenant c banId db).2 := by
  unfold excludeForTenant
  split
  · exact SameOutside.refl _ _ _
  · split
    · exact SameOutside.refl _ _ _
    · split
      · exact SameOutside.refl _ _ _
      · split
        · exact SameOutside.refl _ _ _
        · split
          · exact SameOutside.refl _ _ _
          · exact sameOutside_addExclusion hc

theorem sameOutside_removeExclusion {banId : Nat} :
    SameOutside tenant now db (removeExclusion tenant banId db).2 := by
  unfold removeExclusion
  dsimp only
  split
  · refine { SameOutside.refl tenant now db with exclusions := ?_ }
    rw [List.filter_filter]
    apply List.filter_congr
    intro ex _
    by_cases h : ex.tenantId = tenant
    · simp [h]
    · simp [h]
  · exact SameOutside.refl _ _ _

theorem sameOutside_promoteToGlobal {env : SafetyEnv} {c : Caller} {t : Int} {banId : Nat}
    (hm : isMasterTenant tenant = false) (hc : c.tenantId = tenant) :
    SameOutside tenant now db (promoteToGlobal env c t banId db).2 := by
  unfold promoteToGlobal
  split
  · exact SameOutside.refl _ _ _
  · rename_i target h
    simp only [promoteChecks, bind_eq_ok, require_eq_ok, hc, hm] at h
    obtain ⟨-, hmaster, -⟩ := h
    contradiction

theorem whitelistChecks_scope {castCidr : String → Option Net} {c : Caller}
    {req : CreateWhitelistRequest} {r : Net × Scope × Option Nat}
    (hm : isMasterTenant c.tenantId = false) (h : whitelistChecks castCidr c req db = .ok r) :
    r.2.1 ≠ .global := by
  simp only [whitelistChecks, bind_eq_ok] at h
  obtain ⟨-, -, -, -, s, hs, n, -, h⟩ := h
  rw [← Except.ok.inj h]
  unfold whitelistScope at hs
  simp only [hm, Bool.false_eq_true, if_false] at hs
  have howned : ∀ scope : Scope, scope ≠ .global → ∀ x : Except ApiError Nat,
      x.map (fun id => (scope, some id)) = .ok s → s.1 ≠ .global := by
    intro scope hscope x hx
    cases x with
    | error e => contradiction
    | ok id =>
      rw [← Except.ok.inj hx]
      exact hscope
  split at hs
  · split at hs
    · contradiction
    · exact howned .group (by simp) _ hs
  · split at hs
    · contradiction
    · exact howned .agent (by simp) _ hs
  · rw [← Except.ok.inj hs]
    simp

theorem sameOutside_createWhitelist {castCidr : String → Option Net} {c : Caller} {t : Int}
    {req : CreateWhitelistRequest} (hm : isMasterTenant tenant = false) (hc : c.tenantId = tenant) :
    SameOutside tenant now db (createWhitelist castCidr c t req db).2 := by
  unfold createWhitelist
  split
  · exact SameOutside.refl _ _ _
  · rename_i n s h
    dsimp only
    split
    · exact SameOutside.refl _ _ _
    · have hs := whitelistChecks_scope (by rw [hc]; exact hm) h
      refine { SameOutside.refl tenant now db with whitelist := ?_ }
      simp only at hs
      exact Table.filter_insert (whitelistRow_id c t req n s)
        (by simp [entryMatters, whitelistRow, hs, hc])

theorem sameOutside_deleteWhitelist {c : Caller} {id : Nat} (hm : isMasterTenant tenant = false)
    (hc : c.tenantId = tenant) : SameOutside tenant now db (deleteWhitelist c id db).2 := by
  unfold deleteWhitelist
  split
  · exact SameOutside.refl _ _ _
  · rename_i w hw
    split
    · exact SameOutside.refl _ _ _
    · split
      · exact SameOutside.refl _ _ _
      · exact SameOutside.refl _ _ _
      · exact SameOutside.refl _ _ _
      · rename_i hv
        rw [hc] at hv
        obtain ⟨hscope, hown⟩ := whitelistDeleteVerdict_ok hm hv
        refine { SameOutside.refl tenant now db with whitelist := ?_ }
        apply Table.filter_delete
        intro r hr hid
        obtain ⟨hfound, hkey⟩ := Table.find_eq_some.mp hw
        rw [Table.eq_of_key hr hfound ((beq_iff_eq.mp hid).trans hkey.symm)]
        rcases hown with hown | hown
        · simp [entryMatters, hscope, hown]
        · simp [entryMatters, hscope, hown]

end requests

/-- One request. -/
theorem request_sameOutside {tenant : Nat} {now : Int} {db : Db} {i : Issued}
    (hm : isMasterTenant tenant = false) (hc : i.caller.tenantId = tenant) (ht : i.now ≤ now) :
    SameOutside tenant now db (i.run db) := by
  unfold Issued.run
  cases i.request with
  | createBan checked req => exact sameOutside_createBan hm hc ht
  | lift banId => exact sameOutside_lift hm hc
  | bulkLift ids => exact sameOutside_bulkLift hm hc
  | excludeForTenant banId => exact sameOutside_excludeForTenant hc
  | removeExclusion banId =>
    rw [hc]
    exact sameOutside_removeExclusion
  | promoteToGlobal banId => exact sameOutside_promoteToGlobal hm hc
  | createWhitelist req => exact sameOutside_createWhitelist hm hc
  | deleteWhitelist id => exact sameOutside_deleteWhitelist hm hc

theorem runIssued_sameOutside {tenant : Nat} {now : Int} {reqs : List Issued}
    (hm : isMasterTenant tenant = false)
    (h : ∀ i ∈ reqs, i.caller.tenantId = tenant ∧ i.now ≤ now) (db : Db) :
    SameOutside tenant now db (runIssued reqs db) := by
  induction reqs generalizing db with
  | nil => exact SameOutside.refl _ _ _
  | cons i reqs ih =>
    obtain ⟨hc, ht⟩ := h i (by simp)
    exact (request_sameOutside hm hc ht).trans (ih (fun j hj => h j (by simp [hj])) (i.run db))

/-! ## Delivery -/

section delivery
variable {tenant : Nat} {now : Int} {db db' : Db} {d : Device}

theorem matters_of_banApplies {deviceId : Nat} {groupIds : List Nat} {tenantId : Nat} {b : BanRow}
    (ht : tenantId ≠ tenant) (h : banApplies deviceId groupIds tenantId b = true) :
    (b.scope == .global || b.tenantId != some tenant) = true := by
  unfold banApplies at h
  split at h
  · rename_i hs
    simp [hs]
  all_goals
    simp only [Bool.and_eq_true, beq_iff_eq] at h
    simp [h, ht]

theorem matters_of_deliverable {deviceId : Nat} {groupIds : List Nat} {tenantId : Nat} {b : BanRow}
    (ht : tenantId ≠ tenant) (h : deliverable db now deviceId groupIds tenantId b = true) :
    banMatters tenant now b = true := by
  simp only [deliverable, Bool.and_eq_true] at h
  simp only [banMatters, Bool.and_eq_true]
  exact ⟨h.1.1.1.1, matters_of_banApplies ht h.1.1.1.2⟩

theorem matters_of_whitelistApplies (hch : ChainsInTenant db) (hd : d ∈ db.devices.rows)
    (ht : d.tenantId ≠ tenant) {w : WhitelistRow}
    (h : whitelistApplies ⟨some d.tenantId, groupChain db d, some d.id⟩ w = true) :
    entryMatters tenant db w = true := by
  unfold whitelistApplies at h
  cases hs : w.scope with
  | global => simp [entryMatters, hs]
  | tenant =>
    simp only [hs, beq_iff_eq] at h
    simp [entryMatters, entryTarget, hs, h, ht]
  | group =>
    simp only [hs, Bool.and_eq_true, List.any_eq_true, beq_iff_eq] at h
    obtain ⟨⟨g, hg, hid⟩, howner⟩ := h
    have htarget : entryTarget db w ≠ some tenant := by
      simp only [entryTarget, hs, resolveScopeTenant, hid, Option.bind_some]
      intro he
      obtain ⟨grp, hgrp, hten⟩ := Option.map_eq_some_iff.mp he
      obtain ⟨hmem, hkey⟩ := Table.find_eq_some.mp hgrp
      exact ht ((hch d hd g hg grp hmem hkey).symm.trans hten)
    simp [entryMatters, howner, ht, htarget]
  | agent =>
    simp only [hs, Bool.and_eq_true, Option.any_some, beq_iff_eq] at h
    have htarget : entryTarget db w = some d.tenantId := by
      simp only [entryTarget, hs, resolveScopeTenant, h.1, Option.bind_some]
      rw [Table.find_eq_some.mpr ⟨hd, rfl⟩]
      rfl
    simp [entryMatters, h.2, ht, htarget]

theorem any_filter_of_imp {α : Type} {l : List α} {p q : α → Bool} (h : ∀ a, p a = true → q a = true) :
    (l.filter q).any p = l.any p := by
  rw [List.any_filter]
  congr 1
  funext a
  cases hp : p a with
  | false => simp
  | true => simp [h a hp]

/-- Delivery to a device of another tenant reads nothing but what `SameOutside` keeps. -/
theorem computeBanDelta_congr (h : SameOutside tenant now db db') (hch : ChainsInTenant db)
    (hd : d ∈ db.devices.rows) (ht : d.tenantId ≠ tenant) (reported : List String)
    (cidr : Option Bool) :
    computeBanDelta db' now d.id (groupChain db' d) d.tenantId reported cidr =
      computeBanDelta db now d.id (groupChain db d) d.tenantId reported cidr := by
  have hchain : groupChain db' d = groupChain db d := by
    simp only [groupChain, h.closure]
  have hcidr : enforcesCidr db' d.id cidr = enforcesCidr db d.id cidr := by
    simp only [enforcesCidr, h.devices]
  have hexcl : ∀ b, isExcluded db' d.tenantId b = isExcluded db d.tenantId b := by
    intro b
    have hq : ∀ ex : Exclusion, (ex.banId == b.id && ex.tenantId == d.tenantId) = true →
        (ex.tenantId != tenant) = true := by
      intro ex hex
      simp only [Bool.and_eq_true, beq_iff_eq] at hex
      simpa [hex.2] using ht
    rw [isExcluded, isExcluded, ← any_filter_of_imp hq, h.exclusions, any_filter_of_imp hq]
  have hcov : ∀ b, isCovered db' ⟨some d.tenantId, groupChain db d, some d.id⟩ b =
      isCovered db ⟨some d.tenantId, groupChain db d, some d.id⟩ b := by
    intro b
    have hq : ∀ w : WhitelistRow, ((Inet.ofNet w.ip).contains b.target.networkSql &&
        whitelistApplies ⟨some d.tenantId, groupChain db d, some d.id⟩ w) = true →
          entryMatters tenant db w = true := by
      intro w hw
      rw [Bool.and_eq_true] at hw
      exact matters_of_whitelistApplies hch hd ht hw.2
    rw [isCovered, isCovered, ← any_filter_of_imp hq, h.whitelist, any_filter_of_imp hq]
  have hdel : deliverable db' now d.id (groupChain db d) d.tenantId =
      deliverable db now d.id (groupChain db d) d.tenantId := by
    funext b
    rw [deliverable, deliverable, hexcl, hcov, h.unsafeIds]
  have hrows : db'.bans.rows.filter (deliverable db now d.id (groupChain db d) d.tenantId) =
      db.bans.rows.filter (deliverable db now d.id (groupChain db d) d.tenantId) := by
    have hq : ∀ b, (deliverable db now d.id (groupChain db d) d.tenantId b && banMatters tenant now b)
        = deliverable db now d.id (groupChain db d) d.tenantId b := by
      intro b
      cases hb : deliverable db now d.id (groupChain db d) d.tenantId b with
      | false => rfl
      | true => rw [matters_of_deliverable ht hb]; rfl
    have hfilter := congrArg
      (List.filter (deliverable db now d.id (groupChain db d) d.tenantId)) h.bans
    simpa only [List.filter_filter, hq] using hfilter
  rw [computeBanDelta, computeBanDelta, hchain, hcidr, wanted, wanted, hdel, hrows]

end delivery

/-- Whatever the operators of a tenant other than Default do, with their requests accepted or
refused, what a device of another tenant is told to add and to remove stays the same. -/
theorem computeBanDelta_isolated (tenant : Nat) (hm : isMasterTenant tenant = false) (db : Db)
    (hch : ChainsInTenant db) (reqs : List Issued) (now : Int)
    (hreqs : ∀ i ∈ reqs, i.caller.tenantId = tenant ∧ i.now ≤ now) (d : Device)
    (hd : d ∈ db.devices.rows) (ht : d.tenantId ≠ tenant) (reported : List String)
    (cidr : Option Bool) :
    computeBanDelta (runIssued reqs db) now d.id (groupChain (runIssued reqs db) d) d.tenantId
        reported cidr =
      computeBanDelta db now d.id (groupChain db d) d.tenantId reported cidr :=
  computeBanDelta_congr (runIssued_sameOutside hm hreqs db) hch hd ht reported cidr

/-- Tables with one global ban, and device 7 of tenant 3 in group 5. -/
def twoTenantsDb : Db := { Db.empty with
  bans := ⟨[{
    id := 1, target := Stored.ofNet sampleHost,
    reason := none, banType := .auto, scope := .global, scopeId := none, tenantId := none,
    originTenantId := some 2, originApp := none, originRef := none, bannedByUserId := none,
    expiresAt := none, isActive := true, liftedAt := none, liftReason := none }],
    2, by decide, Nat.two_pos, by decide⟩
  devices := ⟨[⟨7, 3, some 5, ["cidr"]⟩], 8, by decide, subnetDevices.seq_pos, by decide⟩
  groups := ⟨[⟨5, 3⟩], 6, by decide, by decide, by decide⟩
  closure := [⟨5, 5, 0⟩] }

/-- A member of tenant 2 lifts the global ban, then whitelists the address. -/
def tenantTwoRequests : List Issued :=
  let caller : Caller := ⟨4, 2, false, true, none⟩
  let env : SafetyEnv := ⟨none, none, [], [], []⟩
  let cast (s : String) : Option Net := netOfText s
  [⟨.lift 1, caller, 10, env, cast⟩,
    ⟨.createWhitelist ⟨some "198.51.100.7", none, none, none⟩, caller, 20, env, cast⟩]

theorem computeBanDelta_isolated_twoTenants :
    computeBanDelta (runIssued tenantTwoRequests twoTenantsDb) 30 7
        (groupChain (runIssued tenantTwoRequests twoTenantsDb) ⟨7, 3, some 5, ["cidr"]⟩) 3 [] none =
      computeBanDelta twoTenantsDb 30 7 (groupChain twoTenantsDb ⟨7, 3, some 5, ["cidr"]⟩) 3 [] none :=
  computeBanDelta_isolated 2 (by decide) twoTenantsDb (by unfold ChainsInTenant; decide +kernel)
    tenantTwoRequests 30 (by simp [tenantTwoRequests]) ⟨7, 3, some 5, ["cidr"]⟩ (by decide)
    (by decide) [] none

end Obliguard.Server

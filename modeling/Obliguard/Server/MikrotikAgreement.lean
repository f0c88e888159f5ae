import Mathlib.Data.List.TakeWhile
import Obliguard.Server.MikrotikSync
import Obliguard.Server.Requests

/-!
# Pushes to routers against their reconciliation

A push decides by ban row and tenant, `computeBanDelta` by router. `Writes.agrees_iff`,
`Withdraws.agrees_iff` and `restore_agrees_iff` say when the routers hold exactly what they want
after the pushes of a written ban, of one that is taken away from an audience, and of one that a
tenant gets back: each speaks of one target, and of the routers that a push reaches.
-/

namespace Obliguard.Server

open Bans IpValidation

/-! ## Rows and routers -/

/-- The row gives the text to the router. -/
def delivers (db : Db) (now : Int) (d : Device) (text : String) (b : BanRow) : Bool :=
  deliverable db now d.id (routerGroupIds db d) d.tenantId b && deliveredText true b == some text

/-- For the row a push leaves the text on the routers of the tenant. -/
def keeps (db : Db) (now : Int) (text : String) (tenantId : Nat) (b : BanRow) : Bool :=
  b.isActive && b.unexpired now && whereBanTarget text b && !db.unsafeIds.contains b.id &&
    if b.scope = .global then !isExcluded db tenantId b else b.tenantId == some tenantId

/-- The router of a text in the audience of a push. -/
def MikrotikBanAudience.has (audience : MikrotikBanAudience) (d : Device) : Bool :=
  audience.tenantId.all (d.tenantId == ·)

section rows
variable {db : Db} {now : Int} {d : Device} {text : String} {tenantId : Nat} {b : BanRow}

theorem mem_wanted_iff : text ∈ wanted db now d.id (routerGroupIds db d) d.tenantId true ↔
    ∃ b ∈ db.bans.rows, delivers db now d text b = true := by
  simp only [wanted, mem_distinct, List.mem_filterMap, List.mem_filter, delivers,
    Bool.and_eq_true_iff, beq_iff_eq, and_assoc]

theorem mem_tenantsStillWanting {tenantIds : List Nat} :
    tenantId ∈ tenantsStillWanting db now text tenantIds ↔
      tenantId ∈ tenantIds ∧ ∃ b ∈ db.bans.rows, keeps db now text tenantId b = true := by
  simp only [tenantsStillWanting, List.mem_filter, List.any_eq_true, keeps]
  refine and_congr_right fun hmem => ⟨?_, ?_⟩
  · rintro ⟨b, ⟨⟨hb, hrow⟩, hsafe⟩, hreach⟩
    simp only [Bool.and_eq_true_iff] at hrow
    refine ⟨b, hb, ?_⟩
    simp only [Bool.and_eq_true_iff]
    exact ⟨⟨⟨⟨hrow.1.1.1, hrow.1.1.2⟩, hrow.2⟩, hsafe⟩, hreach⟩
  · rintro ⟨b, hb, hrow⟩
    simp only [Bool.and_eq_true_iff] at hrow
    obtain ⟨⟨⟨⟨hactive, hunexpired⟩, htarget⟩, hsafe⟩, hreach⟩ := hrow
    refine ⟨b, ⟨⟨hb, ?_⟩, hsafe⟩, hreach⟩
    have hscope : (b.scope == .global || tenantIds.any (b.tenantId == some ·)) = true := by
      split at hreach
      · rename_i hglobal
        simp [hglobal]
      · rw [beq_iff_eq] at hreach
        simp [hreach, hmem]
    simp [hactive, hunexpired, hscope, htarget]

end rows

section pushes
variable {s : MikrotikState} {now : Int} {d : Device} {target text : String}
  {action : MikrotikAction} {audience : MikrotikBanAudience}

theorem mem_devices {tenantId : Option Nat} : d ∈ s.devices tenantId ↔
    d ∈ s.devices none ∧ tenantId.all (d.tenantId == ·) = true := by
  simp only [MikrotikState.devices, List.mem_filter, Bool.and_eq_true_iff, Option.all_none, and_true,
    and_assoc]

theorem mem_reached_ban : d ∈ s.reached now target .ban audience ↔
    d ∈ s.devices none ∧ audience.has d = true ∧ (audience.tenantId = none →
      d.tenantId ∉ excludedTenants s.db target audience.banId) := by
  simp only [MikrotikState.reached, MikrotikBanAudience.has]
  split
  · rename_i hnone
    rw [List.mem_filter, mem_devices, and_assoc]
    simp [hnone]
  · rename_i hsome
    rw [mem_devices]
    simp [hsome]

theorem mem_reached_unban : d ∈ s.reached now target .unban audience ↔
    d ∈ s.devices none ∧ audience.has d = true ∧
      ¬ ∃ b ∈ s.db.bans.rows, keeps s.db now target d.tenantId b = true := by
  simp only [MikrotikState.reached, MikrotikBanAudience.has]
  rw [List.mem_filter, mem_devices, and_assoc]
  refine and_congr_right fun hd => and_congr_right fun htenant => ?_
  rw [Bool.not_eq_true', ← Bool.not_eq_true, List.contains_iff_mem, mem_tenantsStillWanting,
    mem_distinct, not_and]
  have hmem : d.tenantId ∈ (s.devices audience.tenantId).map (·.tenantId) :=
    List.mem_map_of_mem (mem_devices.mpr ⟨hd, htenant⟩)
  exact ⟨fun h => h hmem, fun h _ => h⟩

theorem held_push (hd : d ∈ s.devices none) :
    (pushBanToAll s now target action audience).held d.id =
      if d ∈ s.reached now target action audience then
        pushToDevice (s.takes d.id) action target (s.held d.id)
      else s.held d.id := by
  have hrows : ∀ d' ∈ s.devices none, d' ∈ s.db.devices.rows := fun d' hd' =>
    List.mem_of_mem_filter hd'
  have hreached : ∀ d' ∈ s.reached now target action audience, d' ∈ s.devices none := by
    intro d' hd'
    cases action with
    | ban => exact (mem_reached_ban.mp hd').1
    | unban => exact (mem_reached_unban.mp hd').1
  have hiff : d.id ∈ (s.reached now target action audience).map (·.id) ↔
      d ∈ s.reached now target action audience := by
    constructor
    · intro h
      obtain ⟨d', hd', hid⟩ := List.mem_map.mp h
      exact Table.eq_of_key (hrows d' (hreached d' hd')) (hrows d hd) hid ▸ hd'
    · exact List.mem_map_of_mem
  exact if_congr hiff rfl rfl

theorem mem_held_ban (hd : d ∈ s.devices none) :
    text ∈ (pushBanToAll s now target .ban audience).held d.id ↔ text ∈ s.held d.id ∨
      text = target ∧ d ∈ s.reached now target .ban audience ∧ s.takes d.id target = true := by
  rw [held_push hd, pushToDevice]
  split
  · rename_i hreached
    split
    · rename_i hkept
      refine (or_iff_left_of_imp ?_).symm
      rintro ⟨rfl, -, htakes⟩
      rcases hkept with hheld | hrefused
      · exact hheld
      · rw [htakes] at hrefused
        contradiction
    · rename_i hnew
      have htakes : s.takes d.id target = true :=
        eq_true_of_ne_false fun hrefused => hnew (.inr hrefused)
      simp [hreached, htakes]
  · rename_i hreached
    simp [hreached]

theorem mem_held_unban (hd : d ∈ s.devices none) :
    text ∈ (pushBanToAll s now target .unban audience).held d.id ↔
      text ∈ s.held d.id ∧ ¬ (text = target ∧ d ∈ s.reached now target .unban audience) := by
  rw [held_push hd, pushToDevice]
  split
  · rename_i hreached
    simp [hreached]
  · rename_i hreached
    simp [hreached]

end pushes

/-! ## Reconciliation -/

section sync
variable {s : MikrotikState} {db : Db} {now : Int} {d : Device} {text : String} {held : List String}
  {groupIds : List Nat} {deviceId tenantId : Nat}

theorem reportedKey_of_wanted (h : text ∈ wanted db now deviceId groupIds tenantId true) :
    reportedKey text = text := by
  obtain ⟨n, hn, rfl⟩ := wanted_canonical h
  rw [reportedKey, parseIpOrCidr_text hn]
  exact targetText_parsedOf n

theorem syncDelta_eq : syncDelta db now d held =
    deltaOf (wanted db now d.id (routerGroupIds db d) d.tenantId true) (distinct held) := rfl

/-- A reconciled router holds what it wants, if it takes what it is missing. -/
theorem mem_fullSync {takes : String → Bool} (hkeys : ∀ t ∈ held, reportedKey t = t)
    (htakes : ∀ t ∈ wanted db now d.id (routerGroupIds db d) d.tenantId true,
      t ∈ held ∨ takes t = true) : text ∈ fullSync takes db now d held ↔
    text ∈ wanted db now d.id (routerGroupIds db d) d.tenantId true := by
  have hadd : ∀ t ∈ (syncDelta db now d held).add, takes t = true := by
    intro t ht
    rw [syncDelta_eq, mem_add] at ht
    rcases htakes t ht.1 with hheld | htaken
    · exact absurd (hkeys t hheld) (ht.2 t (mem_distinct.mpr hheld))
    · exact htaken
  rw [fullSync, List.takeWhile_eq_self_iff.mpr hadd, if_pos (List.all_eq_true.mpr hadd)]
  simp only [syncDelta_eq, List.mem_filter, List.mem_append, mem_add, Bool.not_eq_true',
    ← Bool.not_eq_true, List.contains_iff_mem, mem_remove, mem_distinct, not_and, not_not]
  constructor
  · rintro ⟨hheld | hadd, hkeep⟩
    · rw [← hkeys text hheld]
      exact hkeep hheld
    · exact hadd.1
  · intro hwanted
    refine ⟨?_, fun _ => by rw [reportedKey_of_wanted hwanted]; exact hwanted⟩
    by_cases hheld : text ∈ held
    · exact .inl hheld
    · refine .inr ⟨hwanted, ?_⟩
      intro r hr heq
      rw [hkeys r hr] at heq
      exact hheld (heq ▸ hr)

theorem fullSync_idle (h : s.Agrees now) (hd : d ∈ s.devices none) :
    (syncDelta s.db now d (s.held d.id)).add = [] ∧
      (syncDelta s.db now d (s.held d.id)).remove = [] := by
  constructor
  · refine List.eq_nil_iff_forall_not_mem.mpr fun text htext => ?_
    rw [syncDelta_eq, mem_add] at htext
    exact htext.2 text (mem_distinct.mpr ((h d hd text).mpr htext.1))
      (reportedKey_of_wanted htext.1)
  · refine List.eq_nil_iff_forall_not_mem.mpr fun text htext => ?_
    rw [syncDelta_eq, mem_remove, mem_distinct] at htext
    have hwanted := (h d hd text).mp htext.1
    exact htext.2 (by rw [reportedKey_of_wanted hwanted]; exact hwanted)

theorem held_reconcile (hd : d ∈ s.devices none) :
    (reconcileAll s now).held d.id = fullSync (s.takes d.id) s.db now d (s.held d.id) := by
  have hfind : (s.devices none).find? (·.id == d.id) = some d := by
    cases hfind : (s.devices none).find? (·.id == d.id) with
    | none =>
      rw [List.find?_eq_none] at hfind
      exact absurd (beq_self_eq_true d.id) (hfind d hd)
    | some d' =>
      have hid : d'.id = d.id := by simpa using List.find?_some hfind
      have hd' := List.mem_of_find?_eq_some hfind
      rw [Table.eq_of_key (List.mem_of_mem_filter hd') (List.mem_of_mem_filter hd) hid]
  unfold reconcileAll
  dsimp only
  rw [hfind]

end sync

/-! ## The pushes of a deactivation -/

section deactivate
variable {s : MikrotikState} {now : Int} {d : Device} {target text : String} {rows : List BanRow}

theorem mem_held_unbans (hrows : ∀ b ∈ rows, deliveredBanTarget b = target)
    (hd : d ∈ s.devices none) :
    text ∈ ((rows.map fun b => MikrotikPush.push (deliveredBanTarget b) .unban
        (mikrotikAudienceOf b)).foldl (MikrotikPush.run now) s).held d.id ↔
      text ∈ s.held d.id ∧ ¬ (text = target ∧ (∃ b ∈ rows, (mikrotikAudienceOf b).has d = true) ∧
        ¬ ∃ b ∈ s.db.bans.rows, keeps s.db now target d.tenantId b = true) := by
  induction rows generalizing s with
  | nil => simp
  | cons b rows ih =>
    obtain ⟨rfl, hrows⟩ := List.forall_mem_cons.mp hrows
    rw [List.map_cons, List.foldl_cons]
    refine (@ih (pushBanToAll s now (deliveredBanTarget b) .unban (mikrotikAudienceOf b)) hrows
      hd).trans ?_
    rw [mem_held_unban hd, mem_reached_unban]
    show (_ ∧ _) ∧ ¬ (_ ∧ _ ∧ ¬ ∃ b ∈ s.db.bans.rows, _) ↔ _
    rw [List.exists_mem_cons_iff]
    constructor
    · rintro ⟨⟨hheld, hfirst⟩, hrest⟩
      refine ⟨hheld, ?_⟩
      rintro ⟨htext, hb | hr, hnone⟩
      · exact hfirst ⟨htext, hd, hb, hnone⟩
      · exact hrest ⟨htext, hr, hnone⟩
    · rintro ⟨hheld, hno⟩
      refine ⟨⟨hheld, ?_⟩, ?_⟩
      · rintro ⟨htext, -, hb, hnone⟩
        exact hno ⟨htext, .inl hb, hnone⟩
      · rintro ⟨htext, hr, hnone⟩
        exact hno ⟨htext, .inr hr, hnone⟩

theorem mem_held_deactivate (hrows : ∀ b ∈ rows, deliveredBanTarget b = target)
    (hd : d ∈ s.devices none) (hkeys : ∀ t ∈ s.held d.id, reportedKey t = t)
    (htakes : ∀ t ∈ wanted s.db now d.id (routerGroupIds s.db d) d.tenantId true,
      t ∈ s.held d.id ∨ s.takes d.id t = true) :
    text ∈ ((deactivatePushes rows).foldl (MikrotikPush.run now) s).held d.id ↔
      if rows.length ≤ liftMikrotikMaxRows then
        text ∈ s.held d.id ∧ ¬ (text = target ∧ (∃ b ∈ rows, (mikrotikAudienceOf b).has d = true) ∧
          ¬ ∃ b ∈ s.db.bans.rows, keeps s.db now target d.tenantId b = true)
      else text ∈ wanted s.db now d.id (routerGroupIds s.db d) d.tenantId true := by
  unfold deactivatePushes
  split
  · exact mem_held_unbans hrows hd
  · show text ∈ (reconcileAll s now).held d.id ↔ _
    rw [held_reconcile hd]
    exact mem_fullSync hkeys htakes

theorem foldl_run_tables (pushes : List MikrotikPush) :
    (pushes.foldl (MikrotikPush.run now) s).db = s.db ∧
      (pushes.foldl (MikrotikPush.run now) s).approved = s.approved ∧
        (pushes.foldl (MikrotikPush.run now) s).takes = s.takes := by
  induction pushes generalizing s with
  | nil => exact ⟨rfl, rfl, rfl⟩
  | cons p pushes ih =>
    obtain ⟨hdb, happroved, htakes⟩ := @ih (MikrotikPush.run now s p)
    rw [List.foldl_cons, hdb, happroved, htakes]
    cases p with
    | push target action audience => exact ⟨rfl, rfl, rfl⟩
    | reconcile => exact ⟨rfl, rfl, rfl⟩

end deactivate

/-! ## Targets -/

section target
variable {db : Db} {now : Int} {n : Net} {b : BanRow} {text : String}

theorem targetOf_congr {a a' : Addr} {len len' : Nat} {h : len ≤ a.family.bits}
    {h' : len' ≤ a'.family.bits} (ha : a = a') (hlen : len = len') :
    targetOf a len h = targetOf a' len' h' := by
  subst ha hlen
  rfl

theorem deliveredText_of_sameTarget (hn : ¬ n.IsMapped) (h : sameTarget n b = true) :
    deliveredText true b = some (String.ofList n.text) := by
  simp only [sameTarget, Bool.and_eq_true, Bool.or_eq_true, beq_iff_eq] at h
  have hhost : b.target.ip.host = n.first := by
    rcases h.1 with h | h
    · rw [h]
      rfl
    · rw [h]
      rfl
  have hread : targetOf b.target.networkSql.host b.target.effectivePrefix
      b.target.effectivePrefix_le = some n :=
    (targetOf_congr hhost h.2).trans (targetOf_first hn)
  have hnet : deliveredNet true b.target = some n := (congrArg (Option.map _) hread).trans rfl
  rw [deliveredText_eq, hnet]
  rfl

theorem sameTarget_ofNet (h : b.target = Stored.ofNet n) : sameTarget n b = true := by
  have hlen : (Stored.ofNet n).effectivePrefix = n.len := congrArg Inet.masklen (Stored.networkSql_ofNet n)
  simp only [sameTarget, h, hlen]
  simp [Stored.ofNet]

theorem whereBanTarget_text (hn : ¬ n.IsMapped) :
    whereBanTarget (String.ofList n.text) b = sameTarget n b := by
  rw [whereBanTarget, netOfText_text hn, Option.any_some]

theorem deliveredBanTarget_eq (h : deliveredText true b = some text) : deliveredBanTarget b = text := by
  rw [deliveredBanTarget, h, Option.getD_some]

end target

/-! ## Tables -/

/-- The tables beside the bans that delivery and the pushes read are the same. -/
structure SameContext (db db' : Db) : Prop where
  exclusions : db'.exclusions = db.exclusions
  whitelist : db'.whitelist = db.whitelist
  devices : db'.devices = db.devices
  closure : db'.closure = db.closure
  unsafeIds : db'.unsafeIds = db.unsafeIds

/-- The rows of `db'` are those of `db` without the row of an id, and the row itself as it is now. -/
structure RowWritten (db db' : Db) (row : BanRow) : Prop extends SameContext db db' where
  rows : ∀ b, b ∈ db'.bans.rows ↔ b ∈ db.bans.rows ∧ b.id ≠ row.id ∨ b = row

section tables
variable {db db' : Db} {now : Int} {d : Device} {text : String} {tenantId : Nat} {b : BanRow}
  {n : Net} {ids : List Nat} {reason : LiftReason}

theorem SameContext.delivers (h : SameContext db db') :
    delivers db' now d text b = delivers db now d text b := by
  unfold Server.delivers deliverable isExcluded isCovered routerGroupIds
  rw [h.exclusions, h.whitelist, h.closure, h.unsafeIds]

theorem SameContext.keeps (h : SameContext db db') :
    keeps db' now text tenantId b = keeps db now text tenantId b := by
  unfold Server.keeps isExcluded
  rw [h.exclusions, h.unsafeIds]

theorem sameContext_deactivateBans : SameContext db (deactivateBans db now ids reason).2 :=
  ⟨rfl, rfl, rfl, rfl, rfl⟩

theorem delivers_active (h : delivers db now d text b = true) :
    b.isActive = true ∧ b.unexpired now = true := by
  simp only [delivers, deliverable, Bool.and_eq_true_iff] at h
  exact ⟨h.1.1.1.1.1.1, h.1.1.1.1.1.2⟩

theorem keeps_active (h : keeps db now text tenantId b = true) :
    b.isActive = true ∧ b.unexpired now = true := by
  simp only [keeps, Bool.and_eq_true_iff] at h
  exact ⟨h.1.1.1.1, h.1.1.1.2⟩

theorem exists_deactivateBans {p : BanRow → Bool} (hp : ∀ b, p b = true → b.isActive = true) :
    (∃ b ∈ (deactivateBans db now ids reason).2.bans.rows, p b = true) ↔
      ∃ b ∈ db.bans.rows, b.id ∉ ids ∧ p b = true := by
  constructor
  · rintro ⟨b, hb, hpb⟩
    obtain ⟨hmem, hid⟩ := active_of_mem_deactivateBans hb (hp b hpb)
    exact ⟨b, hmem, hid, hpb⟩
  · rintro ⟨b, hb, hid, hpb⟩
    exact ⟨b, mem_deactivateBans_of_not_mem hb hid, hpb⟩

theorem mem_expireStale (hactive : b.isActive = true) (hunexpired : b.unexpired now = true) :
    b ∈ (expireStale db now n).bans.rows ↔ b ∈ db.bans.rows := by
  constructor
  · intro hb
    exact (active_of_mem_deactivateBans hb hactive).1
  · intro hb
    refine mem_deactivateBans_of_not_mem hb ?_
    rw [Table.key_mem_map_filter hb]
    simp [BanRow.expired_eq, hunexpired]

theorem unexpired_of_mem_expireStale (hb : b ∈ (expireStale db now n).bans.rows)
    (hactive : b.isActive = true) (htarget : sameTarget n b = true) : b.unexpired now = true := by
  obtain ⟨hmem, hid⟩ := active_of_mem_deactivateBans hb hactive
  rw [Table.key_mem_map_filter hmem, htarget, hactive, BanRow.expired_eq] at hid
  simpa using hid

theorem mem_staleRows {r : BanRow} (hr : r ∈ staleRows db now n) : sameTarget n r = true := by
  obtain ⟨b, hb, hid, -, rfl⟩ := mem_deactivated hr
  rw [Table.key_mem_map_filter hb, Bool.and_eq_true_iff, Bool.and_eq_true_iff] at hid
  exact hid.1.1

end tables

/-! ## When pushes fit -/

/-- A ban other than `banId` gives the text to the router. -/
def WantsElse (db : Db) (now : Int) (d : Device) (text : String) (banId : Nat) : Prop :=
  ∃ b ∈ db.bans.rows, b.id ≠ banId ∧ delivers db now d text b = true

/-- For a ban other than `banId` the routers of the tenant keep the text. -/
def KeptElse (db : Db) (now : Int) (text : String) (tenantId banId : Nat) : Prop :=
  ∃ b ∈ db.bans.rows, b.id ≠ banId ∧ keeps db now text tenantId b = true

/-- The push of a row that was written reaches the router. -/
def Announced (db : Db) (d : Device) (row : BanRow) : Prop :=
  if row.scope = .global then isExcluded db d.tenantId row = false
  else row.tenantId = some d.tenantId

/-- When the expired rows of a target are cleared, a router keeps it that another ban gives it to. -/
def StaleFits (db : Db) (now : Int) (d : Device) (n : Net) (banId : Nat) : Prop :=
  (staleRows db now n).length ≤ liftMikrotikMaxRows →
    (∃ r ∈ staleRows db now n, (mikrotikAudienceOf r).has d = true) →
      WantsElse db now d (String.ofList n.text) banId →
        KeptElse db now (String.ofList n.text) d.tenantId banId

/-- A router that the push of a new row reaches is given the target, by this row or by another, if it
takes it; if it does not, the row does not give it the target. -/
def WriteFits (takes : String → Bool) (db : Db) (now : Int) (d : Device) (n : Net) (row : BanRow) :
    Prop :=
  (Announced db d row →
    (takes (String.ofList n.text) = true → WantsElse db now d (String.ofList n.text) row.id ∨
      delivers db now d (String.ofList n.text) row = true) ∧
    (takes (String.ofList n.text) = false → delivers db now d (String.ofList n.text) row = false)) ∧
  (¬ Announced db d row → StaleFits db now d n row.id)

/-- A row written by `create` or by `promoteToGlobal`, once the expired rows are cleared. -/
structure Writes (db db' : Db) (now : Int) (n : Net) (row : BanRow) : Prop
    extends RowWritten (expireStale db now n) db' row where
  active : row.isActive = true
  target : row.target = Stored.ofNet n
  tenant : row.scope ≠ .global → row.tenantId ≠ none
  sole : ∀ b ∈ (expireStale db now n).bans.rows, sameTarget n b = true → b.isActive = true →
    b.unexpired now = true → b.scope ≠ .global
  self : ∀ b ∈ db.bans.rows, b.id = row.id →
    deliveredText true b = some (String.ofList n.text) ∧ row.scope = .global

/-- The pushes of a write. -/
def writePushes (db : Db) (now : Int) (n : Net) (row : BanRow) : List MikrotikPush :=
  deactivatePushes (staleRows db now n) ++
    [.push (String.ofList n.text) .ban (mikrotikAudienceOf row)]

section written
variable {s : MikrotikState} {db db' : Db} {now : Int} {d : Device} {text : String} {tenantId : Nat}
  {b row : BanRow} {n : Net}

theorem exists_mem_expireStale {p : BanRow → Prop}
    (hp : ∀ b, p b → b.isActive = true ∧ b.unexpired now = true) :
    (∃ b ∈ (expireStale db now n).bans.rows, p b) ↔ ∃ b ∈ db.bans.rows, p b := by
  constructor
  · rintro ⟨b, hb, hpb⟩
    exact ⟨b, (mem_expireStale (hp b hpb).1 (hp b hpb).2).mp hb, hpb⟩
  · rintro ⟨b, hb, hpb⟩
    exact ⟨b, (mem_expireStale (hp b hpb).1 (hp b hpb).2).mpr hb, hpb⟩

theorem Writes.context (h : Writes db db' now n row) : SameContext db db' :=
  ⟨h.exclusions, h.whitelist, h.devices, h.closure, h.unsafeIds⟩

theorem Writes.exists_iff (h : Writes db db' now n row) {p : BanRow → Prop}
    (hp : ∀ b, p b → b.isActive = true ∧ b.unexpired now = true) :
    (∃ b ∈ db'.bans.rows, p b) ↔ (∃ b ∈ db.bans.rows, b.id ≠ row.id ∧ p b) ∨ p row := by
  have hold : (∃ b ∈ (expireStale db now n).bans.rows, b.id ≠ row.id ∧ p b) ↔
      ∃ b ∈ db.bans.rows, b.id ≠ row.id ∧ p b := exists_mem_expireStale fun b hb => hp b hb.2
  rw [← hold]
  constructor
  · rintro ⟨b, hb, hpb⟩
    rcases (h.rows b).mp hb with ⟨hmem, hid⟩ | rfl
    · exact .inl ⟨b, hmem, hid, hpb⟩
    · exact .inr hpb
  · rintro (⟨b, hb, hid, hpb⟩ | hpb)
    · exact ⟨b, (h.rows b).mpr (.inl ⟨hb, hid⟩), hpb⟩
    · exact ⟨row, (h.rows row).mpr (.inr rfl), hpb⟩

theorem Writes.wanted_iff (h : Writes db db' now n row) :
    text ∈ wanted db' now d.id (routerGroupIds db' d) d.tenantId true ↔
      WantsElse db now d text row.id ∨ delivers db now d text row = true := by
  rw [mem_wanted_iff, WantsElse]
  simp only [h.context.delivers]
  exact h.exists_iff fun b => delivers_active

theorem Writes.kept_iff (h : Writes db db' now n row) :
    (∃ b ∈ db'.bans.rows, keeps db' now text tenantId b = true) ↔
      KeptElse db now text tenantId row.id ∨ keeps db now text tenantId row = true := by
  rw [KeptElse]
  simp only [h.context.keeps]
  exact h.exists_iff fun b => keeps_active

/-- The tenants excluded from a new global row are those that excluded it: no other global row of the
target is active. -/
theorem Writes.mem_excludedTenants (h : Writes db db' now n row) (hn : ¬ n.IsMapped)
    (hglobal : row.scope = .global) : tenantId ∈ excludedTenants db' (String.ofList n.text) none ↔
      isExcluded db tenantId row = true := by
  have hexclusions : db'.exclusions = db.exclusions := h.exclusions
  have hrow : ∀ b ∈ db'.bans.rows, (b.scope == .global && b.isActive &&
      whereBanTarget (String.ofList n.text) b) = true → b = row := by
    intro b hb hactive
    simp only [Bool.and_eq_true_iff, beq_iff_eq, whereBanTarget_text hn] at hactive
    rcases (h.rows b).mp hb with ⟨hmem, -⟩ | heq
    · have hunexpired := unexpired_of_mem_expireStale hmem hactive.1.2 hactive.2
      exact absurd hactive.1.1 (h.sole b hmem hactive.2 hactive.1.2 hunexpired)
    · exact heq
  have hfind : db'.bans.find row.id = some row :=
    Table.find_eq_some.mpr ⟨(h.rows row).mpr (.inr rfl), rfl⟩
  have hself : (row.scope == .global && row.isActive &&
      whereBanTarget (String.ofList n.text) row) = true := by
    simp [hglobal, h.active, whereBanTarget_text hn, sameTarget_ofNet h.target]
  simp only [excludedTenants, mem_distinct, List.mem_map, List.mem_filter, isExcluded, List.any_eq_true,
    hexclusions, Bool.and_eq_true_iff (x := _ == _), beq_iff_eq]
  constructor
  · rintro ⟨ex, ⟨hex, hany⟩, rfl⟩
    obtain ⟨b, hb, hactive⟩ := (Option.any_eq_true _ _).mp hany
    obtain ⟨hb, hid⟩ := Table.find_eq_some.mp hb
    exact ⟨ex, hex, by rw [← hid, hrow b hb hactive], rfl⟩
  · rintro ⟨ex, hex, hid, rfl⟩
    refine ⟨ex, ⟨hex, ?_⟩, rfl⟩
    rw [hid, hfind, Option.any_some]
    exact hself

theorem Writes.mem_reached (h : Writes db db' now n row) (hn : ¬ n.IsMapped)
    (hs : s.db = db') (hd : d ∈ s.devices none) :
    d ∈ s.reached now (String.ofList n.text) .ban (mikrotikAudienceOf row) ↔ Announced db d row := by
  rw [mem_reached_ban, Announced, and_iff_right hd, hs]
  by_cases hglobal : row.scope = .global
  · rw [if_pos hglobal, show mikrotikAudienceOf row = ⟨none, none⟩ by simp [mikrotikAudienceOf, hglobal],
      h.mem_excludedTenants hn hglobal]
    simp [MikrotikBanAudience.has]
  · obtain ⟨t, ht⟩ := Option.ne_none_iff_exists'.mp (h.tenant hglobal)
    rw [if_neg hglobal, show mikrotikAudienceOf row = ⟨some t, none⟩ by
      simp [mikrotikAudienceOf, hglobal, ht], ht]
    simp only [MikrotikBanAudience.has, Option.all_some, beq_iff_eq, Option.some.injEq]
    constructor
    · rintro ⟨htenant, -⟩
      exact htenant.symm
    · intro htenant
      exact ⟨htenant.symm, fun hnone => nomatch hnone⟩

theorem not_announced (h : ¬ Announced db d row) :
    delivers db now d text row = false ∧ keeps db now text d.tenantId row = false := by
  unfold Announced at h
  split at h
  · rename_i hglobal
    rw [Bool.not_eq_false] at h
    exact ⟨by simp [delivers, deliverable, h], by simp [keeps, hglobal, h]⟩
  · rename_i hscope
    have happlies : banApplies d.id (routerGroupIds db d) d.tenantId row = false := by
      unfold banApplies
      split
      · exact absurd ‹_› hscope
      · simpa using h
      · simp [h]
      · simp [h]
    exact ⟨by simp [delivers, deliverable, happlies], by simp [keeps, hscope, h]⟩

theorem deliveredBanTarget_staleRows (hn : ¬ n.IsMapped) :
    ∀ r ∈ staleRows db now n, deliveredBanTarget r = String.ofList n.text := fun _ hr =>
  deliveredBanTarget_eq (deliveredText_of_sameTarget hn (mem_staleRows hr))

theorem MikrotikState.Agrees.keys (h : s.Agrees now) (hd : d ∈ s.devices none) :
    ∀ t ∈ s.held d.id, reportedKey t = t := fun t ht => reportedKey_of_wanted ((h d hd t).mp ht)

/-- The router after a write and its pushes, seen from one text. -/
theorem Writes.mem_held (hw : Writes s.db db' now n row) (h : s.Agrees now) (hn : ¬ n.IsMapped)
    (hd : d ∈ s.devices none) (htakes : ∀ t ∈ wanted db' now d.id (routerGroupIds db' d) d.tenantId true,
      t ∈ s.held d.id ∨ s.takes d.id t = true) :
    text ∈ ((writePushes s.db now n row).foldl (MikrotikPush.run now)
        { s with db := db' }).held d.id ↔
      (if (staleRows s.db now n).length ≤ liftMikrotikMaxRows then
        text ∈ s.held d.id ∧ ¬ (text = String.ofList n.text ∧
          (∃ r ∈ staleRows s.db now n, (mikrotikAudienceOf r).has d = true) ∧
            ¬ ∃ b ∈ db'.bans.rows, keeps db' now (String.ofList n.text) d.tenantId b = true)
        else text ∈ wanted db' now d.id (routerGroupIds db' d) d.tenantId true) ∨
        text = String.ofList n.text ∧ Announced s.db d row ∧
          s.takes d.id (String.ofList n.text) = true := by
  obtain ⟨mid, hmid⟩ : ∃ mid, mid = (deactivatePushes (staleRows s.db now n)).foldl
    (MikrotikPush.run now) { s with db := db' } := ⟨_, rfl⟩
  obtain ⟨hdb, happroved, htaken⟩ := @foldl_run_tables { s with db := db' } now
    (deactivatePushes (staleRows s.db now n))
  rw [← hmid] at hdb happroved htaken
  have hdevices : ({ s with db := db' } : MikrotikState).devices none = s.devices none := by
    unfold MikrotikState.devices
    dsimp only
    rw [hw.context.devices]
  have hd' : d ∈ ({ s with db := db' } : MikrotikState).devices none := hdevices ▸ hd
  have hdmid : d ∈ mid.devices none := by
    unfold MikrotikState.devices at hd' ⊢
    rw [hdb, happroved]
    exact hd'
  have hstale := @mem_held_deactivate { s with db := db' } now d (String.ofList n.text) text
    (staleRows s.db now n) (deliveredBanTarget_staleRows hn) hd' (h.keys hd) htakes
  rw [← hmid] at hstale
  rw [writePushes, List.foldl_append, List.foldl_cons, List.foldl_nil, ← hmid]
  show text ∈ (pushBanToAll mid now _ .ban _).held d.id ↔ _
  rw [mem_held_ban hdmid, hw.mem_reached hn hdb hdmid, hstale, htaken]

theorem Writes.held_iff (hw : Writes s.db db' now n row) (h : s.Agrees now)
    (hd : d ∈ s.devices none) (hother : text = String.ofList n.text → ¬ Announced s.db d row) :
    text ∈ s.held d.id ↔ WantsElse s.db now d text row.id := by
  rw [h d hd, mem_wanted_iff]
  constructor
  · rintro ⟨b, hb, hdelivers⟩
    refine ⟨b, hb, fun hid => ?_, hdelivers⟩
    obtain ⟨htarget, hglobal⟩ := hw.self b hb hid
    have htext : text = String.ofList n.text := by
      rw [delivers, Bool.and_eq_true_iff, htarget, beq_iff_eq] at hdelivers
      exact (Option.some.inj hdelivers.2).symm
    have hexcluded : isExcluded s.db d.tenantId b = true := by
      have hnot := hother htext
      rw [Announced, if_pos hglobal, Bool.not_eq_false] at hnot
      rw [isExcluded, hid]
      exact hnot
    simp [delivers, deliverable, hexcluded] at hdelivers
  · rintro ⟨b, hb, -, hdelivers⟩
    exact ⟨b, hb, hdelivers⟩

theorem Writes.text_of_delivers (h : Writes db db' now n row) (hn : ¬ n.IsMapped)
    (hdelivers : delivers db now d text row = true) : text = String.ofList n.text := by
  have htarget := deliveredText_of_sameTarget hn (sameTarget_ofNet h.target)
  rw [delivers, Bool.and_eq_true_iff, htarget, beq_iff_eq] at hdelivers
  exact (Option.some.inj hdelivers.2).symm

theorem Writes.takes_of_fits (hw : Writes s.db db' now n row) (h : s.Agrees now) (hn : ¬ n.IsMapped)
    (hd : d ∈ s.devices none) (hfits : WriteFits (s.takes d.id) s.db now d n row) :
    ∀ t ∈ wanted db' now d.id (routerGroupIds db' d) d.tenantId true,
      t ∈ s.held d.id ∨ s.takes d.id t = true := by
  intro t ht
  rcases hw.wanted_iff.mp ht with ⟨b, hb, -, hdelivers⟩ | hdelivers
  · exact .inl ((h d hd t).mpr (mem_wanted_iff.mpr ⟨b, hb, hdelivers⟩))
  · obtain rfl := hw.text_of_delivers hn hdelivers
    have hann : Announced s.db d row := by
      by_contra hnot
      rw [(not_announced hnot).1] at hdelivers
      contradiction
    refine .inr (eq_true_of_ne_false fun hrefused => ?_)
    rw [(hfits.1 hann).2 hrefused] at hdelivers
    contradiction

/-- The routers agree after a write when every router fits. -/
theorem Writes.agrees_iff (hw : Writes s.db db' now n row) (h : s.Agrees now) (hn : ¬ n.IsMapped) :
    ((writePushes s.db now n row).foldl (MikrotikPush.run now) { s with db := db' }).Agrees now ↔
      ∀ d ∈ s.devices none, WriteFits (s.takes d.id) s.db now d n row := by
  obtain ⟨s', hs'⟩ : ∃ s', s' = (writePushes s.db now n row).foldl (MikrotikPush.run now)
    { s with db := db' } := ⟨_, rfl⟩
  obtain ⟨hdb, happroved, htaken⟩ :=
    @foldl_run_tables { s with db := db' } now (writePushes s.db now n row)
  rw [← hs'] at hdb happroved htaken ⊢
  have hdevices : s'.devices none = s.devices none := by
    unfold MikrotikState.devices
    rw [hdb, happroved]
    show List.filter _ db'.devices.rows = _
    rw [hw.context.devices]
  unfold MikrotikState.Agrees
  rw [hdevices, hdb]
  constructor
  · intro hagree d hd
    have htakes : ∀ t ∈ wanted db' now d.id (routerGroupIds db' d) d.tenantId true,
        t ∈ s.held d.id ∨ s.takes d.id t = true := by
      intro t ht
      have := s'.held_takes d.id t ((hagree d hd t).mpr ht)
      rw [htaken] at this
      exact .inr this
    have hX := hagree d hd (String.ofList n.text)
    rw [hs', hw.mem_held h hn hd htakes, hw.wanted_iff] at hX
    refine ⟨fun hann => ⟨fun htake => hX.mp (.inr ⟨rfl, hann, htake⟩), fun hrefused => ?_⟩, ?_⟩
    · rw [Bool.eq_false_iff]
      intro hdelivers
      have hheld := (hagree d hd _).mpr (hw.wanted_iff.mpr (.inr hdelivers))
      have htake := s'.held_takes d.id _ hheld
      rw [htaken, hrefused] at htake
      contradiction
    · intro hnot hlen hstale hwants
      by_contra hkept
      rcases hX.mpr (.inl hwants) with hM | ⟨-, hann, -⟩
      · rw [if_pos hlen] at hM
        refine hM.2 ⟨rfl, hstale, ?_⟩
        rw [hw.kept_iff, (not_announced hnot).2]
        simpa using hkept
      · exact hnot hann
  · intro hfits d hd text
    have htakes := hw.takes_of_fits h hn hd (hfits d hd)
    by_cases hann : text = String.ofList n.text ∧ Announced s.db d row
    · obtain ⟨rfl, hann⟩ := hann
      constructor
      · intro hheld
        have htake := s'.held_takes d.id _ hheld
        rw [htaken] at htake
        exact hw.wanted_iff.mpr (((hfits d hd).1 hann).1 htake)
      · intro hwanted
        have htake := (htakes _ hwanted).elim (s.held_takes d.id _) id
        rw [hs', hw.mem_held h hn hd htakes]
        exact .inr ⟨rfl, hann, htake⟩
    · rw [hs', hw.mem_held h hn hd htakes, hw.wanted_iff]
      have hother : text = String.ofList n.text → ¬ Announced s.db d row :=
        fun htext hreached => hann ⟨htext, hreached⟩
      have hrow : delivers s.db now d text row = false := by
        by_cases htext : text = String.ofList n.text
        · exact (not_announced (hother htext)).1
        · have htarget := deliveredText_of_sameTarget hn (sameTarget_ofNet hw.target)
          simp [delivers, htarget, Ne.symm htext]
      rw [hrow, or_iff_left fun hpushed => hann ⟨hpushed.1, hpushed.2.1⟩,
        or_iff_left Bool.false_ne_true]
      split
      · rename_i hlen
        rw [hw.held_iff h hd hother]
        refine and_iff_left_of_imp fun hwants => ?_
        rintro ⟨rfl, hstale, hnone⟩
        exact hnone (hw.kept_iff.mpr (.inl ((hfits d hd).2 (hother rfl) hlen hstale hwants)))
      · exact Iff.rfl

theorem exists_else_zero {p : BanRow → Prop} :
    (∃ b ∈ db.bans.rows, b.id ≠ 0 ∧ p b) ↔ ∃ b ∈ db.bans.rows, p b := by
  constructor
  · rintro ⟨b, hb, -, hpb⟩
    exact ⟨b, hb, hpb⟩
  · rintro ⟨b, hb, hpb⟩
    exact ⟨b, hb, Nat.ne_of_gt (db.bans.bounds b hb).1, hpb⟩

theorem agrees_stale_iff (h : s.Agrees now) (hn : ¬ n.IsMapped) :
    ((deactivatePushes (staleRows s.db now n)).foldl (MikrotikPush.run now)
        { s with db := expireStale s.db now n }).Agrees now ↔
      ∀ d ∈ s.devices none, StaleFits s.db now d n 0 := by
  obtain ⟨s', hs'⟩ : ∃ s', s' = (deactivatePushes (staleRows s.db now n)).foldl (MikrotikPush.run now)
    { s with db := expireStale s.db now n } := ⟨_, rfl⟩
  obtain ⟨hdb, happroved, -⟩ := @foldl_run_tables { s with db := expireStale s.db now n } now
    (deactivatePushes (staleRows s.db now n))
  rw [← hs'] at hdb happroved ⊢
  have hcontext : SameContext s.db (expireStale s.db now n) := sameContext_deactivateBans
  have hdevices : s'.devices none = s.devices none := by
    unfold MikrotikState.devices
    rw [hdb, happroved]
    rfl
  have hwanted : ∀ (d : Device) text, text ∈ wanted (expireStale s.db now n) now d.id
      (routerGroupIds (expireStale s.db now n) d) d.tenantId true ↔ WantsElse s.db now d text 0 := by
    intro d text
    rw [mem_wanted_iff, WantsElse, exists_else_zero]
    simp only [hcontext.delivers]
    exact exists_mem_expireStale fun b => delivers_active
  have hkept : ∀ text t, (∃ b ∈ (expireStale s.db now n).bans.rows,
      keeps (expireStale s.db now n) now text t b = true) ↔ KeptElse s.db now text t 0 := by
    intro text t
    rw [KeptElse, exists_else_zero]
    simp only [hcontext.keeps]
    exact exists_mem_expireStale fun b => keeps_active
  have hold : ∀ d ∈ s.devices none, ∀ text, text ∈ s.held d.id ↔ WantsElse s.db now d text 0 := by
    intro d hd text
    rw [h d hd, mem_wanted_iff, WantsElse, exists_else_zero]
  have hheld : ∀ d ∈ s.devices none, ∀ text, text ∈ s'.held d.id ↔ _ := fun d hd text =>
    hs' ▸ @mem_held_deactivate { s with db := expireStale s.db now n } now d (String.ofList n.text)
      text (staleRows s.db now n) (deliveredBanTarget_staleRows hn) hd (h.keys hd)
      fun t ht => .inl ((hold d hd t).mpr ((hwanted d t).mp ht))
  unfold MikrotikState.Agrees
  rw [hdevices, hdb]
  constructor
  · intro hagree d hd hlen hstale hwants
    by_contra hnone
    have hX := hagree d hd (String.ofList n.text)
    rw [hheld d hd, if_pos hlen, hwanted] at hX
    refine (hX.mpr hwants).2 ⟨rfl, hstale, ?_⟩
    rw [hkept]
    exact hnone
  · intro hfits d hd text
    rw [hheld d hd, hwanted]
    split
    · rename_i hlen
      rw [hold d hd]
      refine and_iff_left_of_imp fun hwants => ?_
      rintro ⟨rfl, hstale, hnone⟩
      exact hnone ((hkept _ _).mpr (hfits d hd hlen hstale hwants))
    · exact Iff.rfl

end written

/-! ## Bans taken away and given back -/

/-- The routers of an audience have a ban no more. -/
structure Withdraws (db db' : Db) (now : Int) (b : BanRow) (audience : MikrotikBanAudience) : Prop where
  mem : b ∈ db.bans.rows
  devices : db'.devices = db.devices
  lost : ∀ (d : Device) text, audience.has d = true →
    (text ∈ wanted db' now d.id (routerGroupIds db' d) d.tenantId true ↔ WantsElse db now d text b.id)
  same : ∀ (d : Device) text, audience.has d = false →
    (text ∈ wanted db' now d.id (routerGroupIds db' d) d.tenantId true ↔
      text ∈ wanted db now d.id (routerGroupIds db d) d.tenantId true)
  kept : ∀ (d : Device) text, audience.has d = true →
    ((∃ r ∈ db'.bans.rows, keeps db' now text d.tenantId r = true) ↔ KeptElse db now text d.tenantId b.id)

/-- A router of the audience that another ban gives the target to keeps it, and one that has it for
this ban alone loses it. -/
def WithdrawFits (db : Db) (now : Int) (d : Device) (b : BanRow) (audience : MikrotikBanAudience) :
    Prop :=
  audience.has d = true →
    (WantsElse db now d (deliveredBanTarget b) b.id →
      KeptElse db now (deliveredBanTarget b) d.tenantId b.id) ∧
    (delivers db now d (deliveredBanTarget b) b = true →
      KeptElse db now (deliveredBanTarget b) d.tenantId b.id →
        WantsElse db now d (deliveredBanTarget b) b.id)

/-- A router of the tenant is given the target by the ban, were it not excluded, or by another, if it
takes it; if it does not, the ban would not give it the target. -/
def RestoreFits (takes : String → Bool) (db : Db) (now : Int) (d : Device) (b : BanRow)
    (tenantId : Nat) : Prop :=
  d.tenantId = tenantId →
    (takes (deliveredBanTarget b) = true → WantsElse db now d (deliveredBanTarget b) b.id ∨
      delivers { db with exclusions := [] } now d (deliveredBanTarget b) b = true) ∧
    (takes (deliveredBanTarget b) = false →
      delivers { db with exclusions := [] } now d (deliveredBanTarget b) b = false)

section withdrawn
variable {s : MikrotikState} {db db' : Db} {now : Int} {d : Device} {text : String} {b : BanRow}
  {audience : MikrotikBanAudience} {tenantId : Nat}

theorem delivers_target (h : delivers db now d text b = true) : text = deliveredBanTarget b := by
  rw [delivers, Bool.and_eq_true_iff, beq_iff_eq] at h
  exact (deliveredBanTarget_eq h.2).symm

theorem wanted_iff_else (hb : b ∈ db.bans.rows) :
    text ∈ wanted db now d.id (routerGroupIds db d) d.tenantId true ↔
      WantsElse db now d text b.id ∨ delivers db now d text b = true := by
  rw [mem_wanted_iff]
  constructor
  · rintro ⟨r, hr, hdelivers⟩
    by_cases hid : r.id = b.id
    · exact .inr (Table.eq_of_key hr hb hid ▸ hdelivers)
    · exact .inl ⟨r, hr, hid, hdelivers⟩
  · rintro (⟨r, hr, -, hdelivers⟩ | hdelivers)
    · exact ⟨r, hr, hdelivers⟩
    · exact ⟨b, hb, hdelivers⟩

theorem agrees_iff_of_tables {s' : MikrotikState} (hdb : s'.db = db')
    (happroved : s'.approved = s.approved) (hdevices : db'.devices = s.db.devices) :
    s'.devices none = s.devices none ∧ (s'.Agrees now ↔ ∀ d ∈ s.devices none, ∀ text,
      text ∈ s'.held d.id ↔ text ∈ wanted db' now d.id (routerGroupIds db' d) d.tenantId true) := by
  have hsame : s'.devices none = s.devices none := by
    unfold MikrotikState.devices
    rw [hdb, happroved, hdevices]
  refine ⟨hsame, ?_⟩
  unfold MikrotikState.Agrees
  rw [hsame, hdb]

/-- The routers agree after a ban is taken away when every one of the audience fits. -/
theorem Withdraws.agrees_iff (hw : Withdraws s.db db' now b audience) (h : s.Agrees now) :
    (pushBanToAll { s with db := db' } now (deliveredBanTarget b) .unban audience).Agrees now ↔
      ∀ d ∈ s.devices none, WithdrawFits s.db now d b audience := by
  obtain ⟨hdevices, hagrees⟩ := @agrees_iff_of_tables s db' now
    (pushBanToAll { s with db := db' } now (deliveredBanTarget b) .unban audience) rfl rfl hw.devices
  have hheld : ∀ d ∈ s.devices none, ∀ text,
      text ∈ (pushBanToAll { s with db := db' } now (deliveredBanTarget b) .unban audience).held d.id ↔
        text ∈ s.held d.id ∧ ¬ (text = deliveredBanTarget b ∧ audience.has d = true ∧
          ¬ ∃ r ∈ db'.bans.rows, keeps db' now (deliveredBanTarget b) d.tenantId r = true) := by
    intro d hd text
    have hd' : d ∈ ({ s with db := db' } : MikrotikState).devices none := hdevices ▸ hd
    rw [mem_held_unban hd', mem_reached_unban, and_iff_right hd']
  rw [hagrees]
  constructor
  · intro hagree d hd hhas
    have hX := hagree d hd (deliveredBanTarget b)
    rw [hheld d hd, hw.lost d _ hhas, hw.kept d _ hhas, h d hd, wanted_iff_else hw.mem] at hX
    constructor
    · intro hwants
      by_contra hkept
      exact (hX.mpr hwants).2 ⟨rfl, hhas, hkept⟩
    · intro hdelivers hkept
      exact hX.mp ⟨.inr hdelivers, fun hlost => hlost.2.2 hkept⟩
  · intro hfits d hd text
    rw [hheld d hd, h d hd]
    by_cases hhas : audience.has d = true
    · rw [hw.lost d _ hhas, wanted_iff_else hw.mem]
      by_cases htext : text = deliveredBanTarget b
      · subst htext
        obtain ⟨hkeep, hlose⟩ := hfits d hd hhas
        rw [hw.kept d _ hhas]
        constructor
        · rintro ⟨hwants | hdelivers, hlost⟩
          · exact hwants
          · refine hlose hdelivers ?_
            by_contra hkept
            exact hlost ⟨rfl, hhas, hkept⟩
        · intro hwants
          exact ⟨.inl hwants, fun hlost => hlost.2.2 (hkeep hwants)⟩
      · constructor
        · rintro ⟨hwants | hdelivers, -⟩
          · exact hwants
          · exact absurd (delivers_target hdelivers) htext
        · intro hwants
          exact ⟨.inl hwants, fun hlost => htext hlost.1⟩
    · rw [hw.same d _ (Bool.eq_false_iff.mpr hhas)]
      exact and_iff_left fun hlost => hhas hlost.2.1

theorem withdraws_deactivate {reason : LiftReason} (hb : b ∈ db.bans.rows) :
    Withdraws db (deactivateBans db now [b.id] reason).2 now b (mikrotikAudienceOf b) := by
  have hcontext : SameContext db (deactivateBans db now [b.id] reason).2 := sameContext_deactivateBans
  have hwants : ∀ (d : Device) text, text ∈ wanted (deactivateBans db now [b.id] reason).2 now d.id
      (routerGroupIds (deactivateBans db now [b.id] reason).2 d) d.tenantId true ↔
        WantsElse db now d text b.id := by
    intro d text
    rw [mem_wanted_iff, exists_deactivateBans fun r hr => (delivers_active hr).1]
    simp only [hcontext.delivers, List.mem_singleton]
    exact Iff.rfl
  exact {
    mem := hb
    devices := rfl
    lost := fun d text _ => hwants d text
    same := by
      intro d text hhas
      rw [hwants, wanted_iff_else hb]
      refine (or_iff_left fun hdelivers => ?_).symm
      have hscope : b.scope ≠ .global := by
        intro hglobal
        simp [mikrotikAudienceOf, hglobal, MikrotikBanAudience.has] at hhas
      have hnot : ¬ Announced db d b := by
        intro hann
        rw [Announced, if_neg hscope] at hann
        simp [mikrotikAudienceOf, hscope, hann, MikrotikBanAudience.has] at hhas
      rw [(not_announced hnot).1] at hdelivers
      contradiction
    kept := by
      intro d text _
      rw [exists_deactivateBans fun r hr => (keeps_active hr).1]
      simp only [hcontext.keeps, List.mem_singleton]
      exact Iff.rfl }

theorem isExcluded_addExclusion (ex : Exclusion) : isExcluded (addExclusion db ex) tenantId b =
    (isExcluded db tenantId b || ex.banId == b.id && ex.tenantId == tenantId) := by
  unfold addExclusion
  split
  · rename_i hany
    rw [Bool.eq_iff_iff, Bool.or_eq_true_iff]
    refine (or_iff_left_of_imp fun hex => ?_).symm
    rw [Bool.and_eq_true_iff, beq_iff_eq, beq_iff_eq] at hex
    rw [isExcluded, ← hex.1, ← hex.2]
    exact hany
  · rw [isExcluded, List.any_append, List.any_cons, List.any_nil, Bool.or_false]
    rfl

theorem delivers_addExclusion (ex : Exclusion) : delivers (addExclusion db ex) now d text b =
    (delivers db now d text b && !(ex.banId == b.id && ex.tenantId == d.tenantId)) := by
  have hcontext : (addExclusion db ex).whitelist = db.whitelist ∧
      (addExclusion db ex).closure = db.closure ∧ (addExclusion db ex).unsafeIds = db.unsafeIds := by
    unfold addExclusion
    split <;> exact ⟨rfl, rfl, rfl⟩
  unfold delivers deliverable isCovered routerGroupIds
  rw [isExcluded_addExclusion, hcontext.1, hcontext.2.1, hcontext.2.2]
  cases isExcluded db d.tenantId b <;> simp [Bool.and_assoc, Bool.and_comm, Bool.and_left_comm]

theorem keeps_addExclusion (ex : Exclusion) : keeps (addExclusion db ex) now text tenantId b =
    (keeps db now text tenantId b &&
      !(b.scope == .global && (ex.banId == b.id && ex.tenantId == tenantId))) := by
  have hunsafe : (addExclusion db ex).unsafeIds = db.unsafeIds := by
    unfold addExclusion
    split <;> rfl
  unfold keeps
  rw [isExcluded_addExclusion, hunsafe]
  by_cases hglobal : b.scope = .global
  · simp [hglobal, Bool.and_assoc]
  · simp [hglobal]

theorem withdraws_addExclusion {author : Option Nat} (hb : b ∈ db.bans.rows)
    (hglobal : b.scope = .global) :
    Withdraws db (addExclusion db ⟨b.id, tenantId, author⟩) now b ⟨some tenantId, none⟩ := by
  have hframe : (addExclusion db ⟨b.id, tenantId, author⟩).bans = db.bans ∧
      (addExclusion db ⟨b.id, tenantId, author⟩).devices = db.devices := by
    unfold addExclusion
    split <;> exact ⟨rfl, rfl⟩
  have htenant : ∀ d : Device, MikrotikBanAudience.has ⟨some tenantId, none⟩ d = true ↔
      tenantId = d.tenantId := by
    intro d
    rw [MikrotikBanAudience.has, Option.all_some, beq_iff_eq]
    exact eq_comm
  exact {
    mem := hb
    devices := hframe.2
    lost := by
      intro d text hhas
      rw [htenant] at hhas
      rw [mem_wanted_iff, hframe.1, WantsElse]
      refine exists_congr fun r => and_congr_right fun hr => ?_
      rw [delivers_addExclusion, hhas, Bool.and_eq_true_iff, and_comm]
      by_cases hid : r.id = b.id
      · simp [hid]
      · simp [hid, Ne.symm hid]
    same := by
      intro d text hhas
      have hne : tenantId ≠ d.tenantId := by
        rwa [← Bool.not_eq_true, htenant] at hhas
      rw [mem_wanted_iff, mem_wanted_iff, hframe.1]
      refine exists_congr fun r => and_congr_right fun hr => ?_
      rw [delivers_addExclusion]
      simp [hne]
    kept := by
      intro d text hhas
      rw [htenant] at hhas
      rw [hframe.1, KeptElse]
      refine exists_congr fun r => and_congr_right fun hr => ?_
      rw [keeps_addExclusion, hhas, Bool.and_eq_true_iff, and_comm]
      by_cases hid : r.id = b.id
      · rw [Table.eq_of_key hr hb hid]
        simp [hglobal]
      · simp [hid, Ne.symm hid] }

/-- The tables once a tenant has a ban back. -/
def withoutExclusion (db : Db) (tenantId banId : Nat) : Db :=
  { db with exclusions := db.exclusions.filter fun ex => !(ex.banId == banId && ex.tenantId == tenantId) }

theorem isExcluded_withoutExclusion {banId t : Nat} :
    isExcluded (withoutExclusion db tenantId banId) t b =
      (isExcluded db t b && !(b.id == banId && t == tenantId)) := by
  rw [Bool.eq_iff_iff, Bool.and_eq_true_iff]
  simp only [isExcluded, withoutExclusion, List.any_eq_true, List.mem_filter, Bool.and_eq_true_iff,
    beq_iff_eq]
  constructor
  · rintro ⟨ex, ⟨hex, hkeep⟩, hid, ht⟩
    rw [hid, ht] at hkeep
    exact ⟨⟨ex, hex, hid, ht⟩, hkeep⟩
  · rintro ⟨⟨ex, hex, hid, ht⟩, hkeep⟩
    rw [← hid, ← ht] at hkeep
    exact ⟨ex, ⟨hex, hkeep⟩, hid, ht⟩

theorem delivers_withoutExclusion {banId : Nat} :
    delivers (withoutExclusion db tenantId banId) now d text b =
      if b.id = banId ∧ d.tenantId = tenantId then delivers { db with exclusions := [] } now d text b
      else delivers db now d text b := by
  unfold delivers deliverable
  rw [isExcluded_withoutExclusion]
  split
  · rename_i hown
    simp [hown, isExcluded, isCovered, routerGroupIds, withoutExclusion]
  · rename_i hother
    have hno : (b.id == banId && d.tenantId == tenantId) = false := by simpa using hother
    rw [hno, Bool.not_false, Bool.and_true]
    rfl

theorem delivers_of_excluded (h : delivers db now d text b = true) :
    delivers { db with exclusions := [] } now d text b = true := by
  simp only [delivers, deliverable, Bool.and_eq_true_iff] at h ⊢
  exact ⟨⟨⟨⟨h.1.1.1.1, rfl⟩, h.1.1.2⟩, h.1.2⟩, h.2⟩

theorem wanted_withoutExclusion (hb : b ∈ db.bans.rows) :
    text ∈ wanted (withoutExclusion db tenantId b.id) now d.id
        (routerGroupIds (withoutExclusion db tenantId b.id) d) d.tenantId true ↔
      text ∈ wanted db now d.id (routerGroupIds db d) d.tenantId true ∨
        d.tenantId = tenantId ∧ delivers { db with exclusions := [] } now d text b = true := by
  have hb' : b ∈ (withoutExclusion db tenantId b.id).bans.rows := hb
  have helse : WantsElse (withoutExclusion db tenantId b.id) now d text b.id ↔
      WantsElse db now d text b.id := by
    refine exists_congr fun r => and_congr_right fun _ => and_congr_right fun hid => ?_
    rw [delivers_withoutExclusion, if_neg fun h => hid h.1]
  rw [wanted_iff_else hb', wanted_iff_else hb, helse, delivers_withoutExclusion, or_assoc]
  refine or_congr_right ?_
  by_cases htenant : d.tenantId = tenantId
  · rw [if_pos ⟨rfl, htenant⟩, and_iff_right htenant]
    exact (or_iff_right_of_imp delivers_of_excluded).symm
  · rw [if_neg fun h => htenant h.2]
    exact (or_iff_left fun h => htenant h.1).symm

theorem wanted_withoutExclusion_of_inactive {banId : Nat}
    (h : ∀ r ∈ db.bans.rows, r.id = banId → r.isActive = false) :
    text ∈ wanted (withoutExclusion db tenantId banId) now d.id
        (routerGroupIds (withoutExclusion db tenantId banId) d) d.tenantId true ↔
      text ∈ wanted db now d.id (routerGroupIds db d) d.tenantId true := by
  rw [mem_wanted_iff, mem_wanted_iff]
  refine exists_congr fun r => and_congr_right fun hr => ?_
  rw [delivers_withoutExclusion]
  split
  · rename_i hown
    have hinactive := h r hr hown.1
    simp [delivers, deliverable, hinactive]
  · exact Iff.rfl

/-- The routers agree after a tenant got a ban back when every router of the tenant fits. -/
theorem restore_agrees_iff (h : s.Agrees now) (hb : b ∈ s.db.bans.rows) :
    (pushBanToAll { s with db := withoutExclusion s.db tenantId b.id } now (deliveredBanTarget b) .ban
        ⟨some tenantId, none⟩).Agrees now ↔
      ∀ d ∈ s.devices none, RestoreFits (s.takes d.id) s.db now d b tenantId := by
  obtain ⟨hdevices, hagrees⟩ := @agrees_iff_of_tables s (withoutExclusion s.db tenantId b.id) now
    (pushBanToAll { s with db := withoutExclusion s.db tenantId b.id } now (deliveredBanTarget b) .ban
      ⟨some tenantId, none⟩) rfl rfl rfl
  have hheld : ∀ d ∈ s.devices none, ∀ text,
      text ∈ (pushBanToAll { s with db := withoutExclusion s.db tenantId b.id } now
          (deliveredBanTarget b) .ban ⟨some tenantId, none⟩).held d.id ↔
        text ∈ s.held d.id ∨ text = deliveredBanTarget b ∧ d.tenantId = tenantId ∧
          s.takes d.id (deliveredBanTarget b) = true := by
    intro d hd text
    have hd' : d ∈ ({ s with db := withoutExclusion s.db tenantId b.id } : MikrotikState).devices none :=
      hdevices ▸ hd
    rw [mem_held_ban hd', mem_reached_ban, and_iff_right hd']
    simp [MikrotikBanAudience.has]
  rw [hagrees]
  constructor
  · intro hagree d hd htenant
    constructor
    · intro htake
      have hX := (hagree d hd (deliveredBanTarget b)).mp
        ((hheld d hd _).mpr (.inr ⟨rfl, htenant, htake⟩))
      rw [wanted_withoutExclusion hb, wanted_iff_else hb] at hX
      rcases hX with (hwants | hdelivers) | ⟨-, hdelivers⟩
      · exact .inl hwants
      · exact .inr (delivers_of_excluded hdelivers)
      · exact .inr hdelivers
    · intro hrefused
      rw [Bool.eq_false_iff]
      intro hdelivers
      have hX := (hagree d hd (deliveredBanTarget b)).mpr
        ((wanted_withoutExclusion hb).mpr (.inr ⟨htenant, hdelivers⟩))
      have htake := (pushBanToAll _ now (deliveredBanTarget b) .ban _).held_takes d.id _ hX
      exact absurd htake (Bool.eq_false_iff.mp hrefused)
  · intro hfits d hd text
    rw [hheld d hd, wanted_withoutExclusion hb, h d hd]
    constructor
    · rintro (hwants | ⟨rfl, htenant, htake⟩)
      · exact .inl hwants
      · rcases (hfits d hd htenant).1 htake with hwants | hdelivers
        · exact .inl ((wanted_iff_else hb).mpr (.inl hwants))
        · exact .inr ⟨htenant, hdelivers⟩
    · rintro (hwants | ⟨htenant, hdelivers⟩)
      · exact .inl hwants
      · obtain rfl := delivers_target hdelivers
        refine .inr ⟨rfl, htenant, eq_true_of_ne_false fun hrefused => ?_⟩
        rw [(hfits d hd htenant).2 hrefused] at hdelivers
        contradiction

end withdrawn

end Obliguard.Server

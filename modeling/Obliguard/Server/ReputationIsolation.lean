import Obliguard.Server.IpReputation

/-!
# What other tenants' events change for a customer tenant

Two databases that differ only in the events of other tenants and in `ip_reputation` (`DifferOutside`) are read by a
customer tenant. Every total, every date and every list it reads comes from its own events; what is left of the shared
rows is that there is one, its GeoIP columns, `updated_at`, and on which side of zero and of the tenant's baselines
the failure counter is.

`sameAnswers_iff`: with `updated_at` left out, the tenant's lists and statuses are the same in both if and only if the
rows agree in that, at every address (`Agree`); for pushes of other tenants `sameAnswers_pushAll_iff` is about the
counters alone. A failure that another tenant reports can make the difference
(`pushEvents_suspicious`).
-/

namespace Obliguard.Server

/-- The databases differ only in the events of other tenants, and in `ip_reputation`. -/
structure DifferOutside (tenantId : Nat) (s s' : ReputationDb) : Prop where
  tables : s' = { s with events := s'.events, reputation := s'.reputation }
  own : s.events.filter (fun e => e.tenantId = some tenantId) = s'.events.filter fun e => e.tenantId = some tenantId

/-- The failure counter of an address. -/
def failuresAt (db : ReputationDb) (ip : Inet) : Nat := ((db.reputation.find ip).map (·.totalFailures)).getD 0

def noGeo : Geo := ⟨none, none, none⟩

def geoAt (db : ReputationDb) (ip : Inet) : Geo := ((db.reputation.find ip).map (·.geo)).getD noGeo

/-- No ban and no whitelist entry that the tenant sees stands before the counter. -/
def CounterDecides (now : Int) (tenantId : Nat) (db : ReputationDb) (ip : Inet) : Prop :=
  activeBansAt db now (.only [tenantId]) ip = [] ∧ whitelistEntry db (.only [tenantId]) ip = none

/-- What a tenant reads of the shared row of an address is the same in both. -/
structure Agree (cast : String → Option Inet) (now : Int) (tenantId : Nat) (s s' : ReputationDb) (ip : Inet) :
    Prop where
  listed : readEvents s (.only [tenantId]) ip ≠ [] →
    (s.reputation.find ip).isSome = (s'.reputation.find ip).isSome
  geo : readEvents s (.only [tenantId]) ip ≠ [] ∨ activeBansAt s now (.only [tenantId]) ip ≠ [] →
    geoAt s ip = geoAt s' ip
  failing : CounterDecides now tenantId s ip →
    (readEvents s (.only [tenantId]) ip ≠ [] ∨ ∃ text, cast text = some ip) →
    (0 < failuresAt s ip ↔ 0 < failuresAt s' ip)
  cleared : CounterDecides now tenantId s ip →
    ∀ clr ∈ s.clears.rows, clr.tenantId = tenantId → cast clr.ip = some ip →
    (clr.baselineFailures < failuresAt s ip ↔ clr.baselineFailures < failuresAt s' ip)

/-- An item without `updated_at`. -/
def IpReputationListItem.hidden (item : IpReputationListItem) : IpReputationListItem := { item with updatedAt := 0 }

def ListResult.hidden (r : ListResult) : ListResult := { r with data := r.data.map (·.hidden) }

theorem hidden_page (f : ListFilters) (rows : List IpReputationListItem) :
    (f.page rows).hidden = f.page (rows.map (·.hidden)) := by
  simp [ListFilters.page, ListResult.hidden, List.map_take, List.map_drop]

theorem eq_of_pages {f : ListFilters} {rows rows' : List IpReputationListItem}
    (h : ∀ k : Nat, { f with limit := some 1, offset := some k }.page rows =
      { f with limit := some 1, offset := some k }.page rows') : rows = rows' := by
  refine List.ext_getElem? fun k => ?_
  have hk := congrArg (·.data.head?) (h k)
  simpa [ListFilters.page, List.head?_take] using hk

theorem readTenantsFor_customer {tenantId : Nat} (h : 0 < tenantId) (hc : isMasterTenant tenantId = false)
    (requested : List Nat) : readTenantsFor (some tenantId) requested = .only [tenantId] := by
  simp [readTenantsFor, hc, Nat.ne_of_gt h]

theorem clearTenantOf_customer {tenantId : Nat} (hc : isMasterTenant tenantId = false) :
    clearTenantOf (some tenantId) = some tenantId := by
  simp [clearTenantOf, hc]

section two
variable {cast : String → Option Inet} {now : Int} {tenantId : Nat} {s s' : ReputationDb}

theorem DifferOutside.symm (h : DifferOutside tenantId s s') : DifferOutside tenantId s' s := by
  refine ⟨?_, h.own.symm⟩
  rw [h.tables]

theorem readEvents_filter (db : ReputationDb) (ip : Inet) :
    readEvents db (.only [tenantId]) ip =
      (db.events.filter fun e => e.tenantId = some tenantId).filter fun e => e.ip = ip := by
  rw [readEvents, List.filter_filter]
  refine List.filter_congr fun e _ => ?_
  cases he : e.tenantId <;> simp [ReadTenants.reads, eq_comm]

theorem activeBan_eq_none {db : ReputationDb} {tenants : ReadTenants} {t : Option Nat} {ip : Inet} :
    activeBan db now tenants t ip = none ↔ activeBansAt db now tenants ip = [] := by
  rw [activeBan, List.head?_eq_none_iff, List.eq_nil_iff_forall_not_mem, List.eq_nil_iff_forall_not_mem]
  simp only [mem_sortBy]

theorem mem_joinedClears {db : ReputationDb} {clearTenant : Option Nat} {ip : Inet} {clr : Option TenantClear} :
    clr ∈ joinedClears cast db clearTenant ip ↔
      (clr = none ∧ ∀ c ∈ db.clears.rows, clearTenant = some c.tenantId → cast c.ip ≠ some ip) ∨
        ∃ c ∈ db.clears.rows, clr = some c ∧ clearTenant = some c.tenantId ∧ cast c.ip = some ip := by
  have hfound (c : TenantClear) : c ∈ db.clears.rows.filter (fun clr =>
      clearTenant = some clr.tenantId && cast clr.ip = some ip) ↔
        c ∈ db.clears.rows ∧ clearTenant = some c.tenantId ∧ cast c.ip = some ip := by
    rw [List.mem_filter, Bool.and_eq_true, decide_eq_true_eq, decide_eq_true_eq]
  rw [joinedClears]
  split
  next hnil =>
    rw [List.mem_singleton]
    have hnone : ∀ c ∈ db.clears.rows, clearTenant = some c.tenantId → cast c.ip ≠ some ip := by
      intro c hc ht hip
      exact List.not_mem_nil (hnil ▸ (hfound c).mpr ⟨hc, ht, hip⟩)
    constructor
    · intro hclr
      exact .inl ⟨hclr, hnone⟩
    · rintro (⟨hclr, -⟩ | ⟨c, hc, -, ht, hip⟩)
      · exact hclr
      · exact absurd hip (hnone c hc ht)
  next hne =>
    rw [List.mem_map]
    constructor
    · rintro ⟨c, hc, rfl⟩
      obtain ⟨hmem, ht, hip⟩ := (hfound c).mp hc
      exact .inr ⟨c, hmem, rfl, ht, hip⟩
    · rintro (⟨-, hnone⟩ | ⟨c, hc, rfl, ht, hip⟩)
      · obtain ⟨c, hc⟩ := List.exists_mem_of_ne_nil _ hne
        obtain ⟨hmem, ht, hip⟩ := (hfound c).mp hc
        exact absurd hip (hnone c hmem ht)
      · exact ⟨c, (hfound c).mpr ⟨hc, ht, hip⟩, rfl⟩

theorem joinedClears_ne_nil (cast : String → Option Inet) (db : ReputationDb) (clearTenant : Option Nat) (ip : Inet) :
    joinedClears cast db clearTenant ip ≠ [] := by
  rw [joinedClears]
  split
  · exact List.cons_ne_nil _ _
  · rwa [Ne, List.map_eq_nil_iff]

theorem computedStatus_eq (b : Option ListedBan) (w : Option WhitelistRow) (clr : Option TenantClear) {m n : Nat}
    (h : b = none → w = none →
      ((clr.map (·.baselineFailures)).getD 0 < m ↔ (clr.map (·.baselineFailures)).getD 0 < n)) :
    computedStatus b w clr m = computedStatus b w clr n := by
  cases b with
  | some b => rfl
  | none =>
    cases w with
    | some w => rfl
    | none => simp only [computedStatus, gt_iff_lt, h rfl rfl]

theorem computedStatus_none_eq_iff {clr : Option TenantClear} {m n : Nat} :
    computedStatus none none clr m = computedStatus none none clr n ↔
      ((clr.map (·.baselineFailures)).getD 0 < m ↔ (clr.map (·.baselineFailures)).getD 0 < n) := by
  constructor
  · intro h
    simp only [computedStatus, Option.isSome_none, Bool.false_eq_true, if_false] at h
    split at h <;> split at h <;> grind
  · exact fun h => computedStatus_eq none none clr fun _ _ => h

section differ
variable (h : DifferOutside tenantId s s')
include h

theorem readEvents_eq (ip : Inet) : readEvents s' (.only [tenantId]) ip = readEvents s (.only [tenantId]) ip := by
  rw [readEvents_filter, readEvents_filter, h.own]

theorem activeBansAt_eq (ip : Inet) :
    activeBansAt s' now (.only [tenantId]) ip = activeBansAt s now (.only [tenantId]) ip := by
  rw [h.tables]
  rfl

theorem whitelistEntry_eq (ip : Inet) :
    whitelistEntry s' (.only [tenantId]) ip = whitelistEntry s (.only [tenantId]) ip := by
  rw [h.tables]
  rfl

theorem activeBan_eq (ip : Inet) : activeBan s' now (.only [tenantId]) (some tenantId) ip =
    activeBan s now (.only [tenantId]) (some tenantId) ip := by
  rw [activeBan, activeBan, activeBansAt_eq h]

theorem joinedClears_eq (ip : Inet) :
    joinedClears cast s' (some tenantId) ip = joinedClears cast s (some tenantId) ip := by
  rw [h.tables]
  rfl

theorem hidden_attributed (owner : List Nat → Option Nat) {rep rep' : IpReputation}
    (hrep : rep' = { rep with
      totalFailures := rep'.totalFailures
      totalSuccesses := rep'.totalSuccesses
      affectedAgentsCount := rep'.affectedAgentsCount
      affectedServices := rep'.affectedServices
      attemptedUsernames := rep'.attemptedUsernames
      firstSeen := rep'.firstSeen
      lastSeen := rep'.lastSeen
      lastEventDeviceId := rep'.lastEventDeviceId
      updatedAt := rep'.updatedAt }) :
    (attributed s' (.only [tenantId]) owner (scopeTotals s' (.only [tenantId]) rep')).hidden =
      (attributed s (.only [tenantId]) owner (scopeTotals s (.only [tenantId]) rep)).hidden := by
  have hevents := readEvents_eq h rep.ip
  have hnames : s'.tenantName = s.tenantName := by rw [h.tables]
  rw [hrep]
  simp only [attributed, eventTenants, scopeTotals, applyTenantTotals, IpReputationListItem.hidden, hevents, hnames]

theorem hidden_reputationItem {r r' : ReputationRow} {clr : Option TenantClear} (hip : r'.ip = r.ip)
    (hgeo : r'.geo = r.geo)
    (hstatus : ∀ b w, b = activeBan s now (.only [tenantId]) (some tenantId) r.ip →
      w = whitelistEntry s (.only [tenantId]) r.ip →
      computedStatus b w clr r'.totalFailures = computedStatus b w clr r.totalFailures) :
    (reputationItem s' now (.only [tenantId]) (some tenantId) r' clr).hidden =
      (reputationItem s now (.only [tenantId]) (some tenantId) r clr).hidden := by
  have hexcluded (b : ListedBan) : isExcludedBy s' (some tenantId) b = isExcludedBy s (some tenantId) b := by
    rw [h.tables]
    rfl
  rw [reputationItem, reputationItem, hip, activeBan_eq h, whitelistEntry_eq h]
  refine hidden_attributed h _ ?_
  rw [hstatus _ _ rfl rfl]
  cases activeBan s now (.only [tenantId]) (some tenantId) r.ip with
  | none => simp only [Option.elim_none, rowToReputation, hip, hgeo]
  | some b => simp only [Option.elim_some, IpReputation.withBan, rowToReputation, hip, hgeo, hexcluded]

end differ

theorem find_of_mem {db : ReputationDb} {r : ReputationRow} (hr : r ∈ db.reputation.rows) :
    db.reputation.find r.ip = some r :=
  Keyed.find_eq_some.mpr ⟨hr, rfl⟩

theorem failuresAt_of_mem {db : ReputationDb} {r : ReputationRow} (hr : r ∈ db.reputation.rows) :
    failuresAt db r.ip = r.totalFailures := by
  rw [failuresAt, find_of_mem hr, Option.map_some, Option.getD_some]

theorem geoAt_of_mem {db : ReputationDb} {r : ReputationRow} (hr : r ∈ db.reputation.rows) :
    geoAt db r.ip = r.geo := by
  rw [geoAt, find_of_mem hr, Option.map_some, Option.getD_some]

theorem baseline_lt_iff {ip : Inet} (ha : Agree cast now tenantId s s' ip)
    (hev : readEvents s (.only [tenantId]) ip ≠ []) {clr : Option TenantClear}
    (hclr : clr ∈ joinedClears cast s (some tenantId) ip) (hd : CounterDecides now tenantId s ip) :
    (clr.map (·.baselineFailures)).getD 0 < failuresAt s' ip ↔
      (clr.map (·.baselineFailures)).getD 0 < failuresAt s ip := by
  rcases mem_joinedClears.mp hclr with ⟨rfl, -⟩ | ⟨c, hc, rfl, ht, hip⟩
  · exact (ha.failing hd (.inl hev)).symm
  · exact (ha.cleared hd c hc (Option.some.inj ht).symm hip).symm

theorem hidden_reputationItems (h : DifferOutside tenantId s s') (hc : isMasterTenant tenantId = false)
    (hpos : 0 < tenantId) {f : ListFilters} (hf : f.tenantId = some tenantId) {r r' : ReputationRow}
    (hr : r ∈ s.reputation.rows) (hr' : r' ∈ s'.reputation.rows) (hip : r'.ip = r.ip)
    (hev : readEvents s (.only [tenantId]) r.ip ≠ []) (ha : Agree cast now tenantId s s' r.ip) :
    (reputationItems cast s' now f r').map (·.hidden) = (reputationItems cast s now f r).map (·.hidden) := by
  have hgeo : r'.geo = r.geo := by
    rw [← geoAt_of_mem hr', ← geoAt_of_mem hr, hip]
    exact (ha.geo (.inl hev)).symm
  have hitem : ∀ clr ∈ joinedClears cast s (some tenantId) r.ip,
      (reputationItem s' now (.only [tenantId]) (some tenantId) r' clr).hidden =
        (reputationItem s now (.only [tenantId]) (some tenantId) r clr).hidden := by
    intro clr hclr
    refine hidden_reputationItem h hip hgeo ?_
    rintro b w rfl rfl
    refine computedStatus_eq _ _ _ fun hb hw => ?_
    rw [← failuresAt_of_mem hr, ← failuresAt_of_mem hr', hip]
    exact baseline_lt_iff ha hev hclr ⟨activeBan_eq_none.mp hb, hw⟩
  have hfilter (items : List IpReputationListItem) :
      (items.filter fun item => f.status.all fun status => item.status = status).map (·.hidden) =
        (items.map (·.hidden)).filter fun item => f.status.all fun status => item.status = status := by
    rw [List.filter_map]
    rfl
  rw [reputationItems, reputationItems, hf, readTenantsFor_customer hpos hc, clearTenantOf_customer hc, hip,
    joinedClears_eq h, hfilter, hfilter, List.map_map, List.map_map]
  exact congrArg _ (List.map_congr_left hitem)
theorem country_eq (row : Option ReputationRow) :
    row.bind (·.geo.countryCode) = ((row.map (·.geo)).getD noGeo).countryCode := by
  cases row <;> rfl

theorem orderValue_eq (h : DifferOutside tenantId s s') (key : ReputationSortKey) (ip : Inet)
    {row row' : Option ReputationRow} (ban : Option ListedBan)
    (hgeo : (row.map (·.geo)).getD noGeo = (row'.map (·.geo)).getD noGeo) :
    orderValue s' (.only [tenantId]) key ip row' ban = orderValue s (.only [tenantId]) key ip row ban := by
  simp only [orderValue, readEvents_eq h, country_eq, hgeo, Option.map_some, Option.getD_some]

theorem mem_map_ip {db : ReputationDb} {p : Inet → Bool} {ip : Inet} :
    ip ∈ (db.reputation.rows.filter fun r => p r.ip).map (·.ip) ↔
      (db.reputation.find ip).isSome = true ∧ p ip = true := by
  rw [List.mem_map, Option.isSome_iff_exists]
  constructor
  · rintro ⟨r, hr, rfl⟩
    rw [List.mem_filter] at hr
    exact ⟨⟨r, find_of_mem hr.1⟩, hr.2⟩
  · rintro ⟨⟨r, hr⟩, hp⟩
    rw [Keyed.find_eq_some] at hr
    obtain ⟨hmem, rfl⟩ := hr
    exact ⟨r, List.mem_filter.mpr ⟨hmem, hp⟩, rfl⟩

theorem flatMap_by_ip {db : ReputationDb} {rows : List ReputationRow} (hrows : ∀ r ∈ rows, r ∈ db.reputation.rows)
    (g : ReputationRow → List IpReputationListItem) :
    rows.flatMap g = (rows.map (·.ip)).flatMap fun ip => ((db.reputation.find ip).map g).getD [] := by
  rw [List.flatMap_map]
  refine List.flatMap_congr fun r hr => ?_
  rw [find_of_mem (hrows r hr), Option.map_some, Option.getD_some]

theorem bannedRow_ip (db : ReputationDb) (ip : Inet) (bannedAt : Int) :
    ((db.reputation.find ip).getD (emptyReputationRow ip bannedAt)).ip = ip := by
  cases hr : db.reputation.find ip with
  | none => rfl
  | some r => exact (Keyed.find_eq_some.mp hr).2

theorem bannedRow_geo (db : ReputationDb) (ip : Inet) (bannedAt : Int) :
    ((db.reputation.find ip).getD (emptyReputationRow ip bannedAt)).geo = geoAt db ip := by
  rw [geoAt]
  cases db.reputation.find ip <;> rfl

section customer
variable (h : DifferOutside tenantId s s') (hpos : 0 < tenantId) (hc : isMasterTenant tenantId = false)
  {f : ListFilters} (hf : f.tenantId = some tenantId)
include hpos hc hf

theorem mem_reputationRows {db : ReputationDb} {r : ReputationRow} : r ∈ reputationRows cast db f ↔
    r ∈ db.reputation.rows ∧ readEvents db (.only [tenantId]) r.ip ≠ [] ∧
      (f.search.filter (· ≠ "")).all (fun raw => ipSearchSql cast r.ip (parseIpSearch raw)) = true := by
  rw [reputationRows, hf, readTenantsFor_customer hpos hc, mem_orderRows, List.mem_filter, Bool.and_eq_true,
    hasTenantEvents, decide_eq_true_eq]

include h

theorem map_ip_reputationRows (ha : ∀ ip, Agree cast now tenantId s s' ip) :
    (reputationRows cast s' f).map (·.ip) = (reputationRows cast s f).map (·.ip) := by
  rw [reputationRows, reputationRows, hf, readTenantsFor_customer hpos hc]
  generalize f.sortBy.getD .lastSeen = key
  generalize f.sortOrder.getD .desc = order
  have hevents (ip : Inet) : hasTenantEvents s' (.only [tenantId]) ip = hasTenantEvents s (.only [tenantId]) ip := by
    rw [hasTenantEvents, hasTenantEvents, readEvents_eq h]
  simp only [hevents]
  let p (ip : Inet) := hasTenantEvents s (.only [tenantId]) ip &&
    (f.search.filter (· ≠ "")).all fun raw => ipSearchSql cast ip (parseIpSearch raw)
  have hp {ip : Inet} (hlisted : p ip = true) : readEvents s (.only [tenantId]) ip ≠ [] := by
    simpa [hasTenantEvents] using (Bool.and_eq_true_iff.mp hlisted).1
  let value (ip : Inet) := orderValue s (.only [tenantId]) key ip (s.reputation.find ip) none
  have hvalue {r : ReputationRow} (hr : r ∈ s.reputation.rows) :
      orderValue s (.only [tenantId]) key r.ip (some r) none = value r.ip :=
    congrArg (fun row => orderValue s (.only [tenantId]) key r.ip row none) (find_of_mem hr).symm
  have hvalue' {r : ReputationRow} (hr : r ∈ s'.reputation.rows) (hlisted : p r.ip = true) :
      orderValue s' (.only [tenantId]) key r.ip (some r) none = value r.ip := by
    refine orderValue_eq h key r.ip none ?_
    rw [Option.map_some, Option.getD_some, ← geoAt_of_mem hr]
    exact (ha r.ip).geo (.inl (hp hlisted))
  have hmap : (orderRows order (fun r => orderValue s (.only [tenantId]) key r.ip (some r) none)
      (fun r => inetKey r.ip) (s.reputation.rows.filter fun r => p r.ip)).map (·.ip) =
        orderRows order value inetKey ((s.reputation.rows.filter fun r => p r.ip).map (·.ip)) :=
    map_orderRows (fun r hr => hvalue (List.mem_of_mem_filter hr)) fun _ _ => rfl
  have hmap' : (orderRows order (fun r => orderValue s' (.only [tenantId]) key r.ip (some r) none)
      (fun r => inetKey r.ip) (s'.reputation.rows.filter fun r => p r.ip)).map (·.ip) =
        orderRows order value inetKey ((s'.reputation.rows.filter fun r => p r.ip).map (·.ip)) :=
    map_orderRows (fun r hr => hvalue' (List.mem_of_mem_filter hr) (List.mem_filter.mp hr).2) fun _ _ => rfl
  refine hmap'.trans (Eq.trans ?_ hmap.symm)
  refine orderRows_perm inetKey_injective ?_
  rw [List.perm_ext_iff_of_nodup (s'.reputation.nodup.sublist (List.filter_sublist.map _))
    (s.reputation.nodup.sublist (List.filter_sublist.map _))]
  intro ip
  refine mem_map_ip.trans (Iff.trans (and_congr_left ?_) mem_map_ip.symm)
  intro hlisted
  rw [(ha ip).listed (hp hlisted)]

theorem hidden_reputationList (ha : ∀ ip, Agree cast now tenantId s s' ip) :
    ((reputationRows cast s' f).flatMap (reputationItems cast s' now f)).map (·.hidden) =
      ((reputationRows cast s f).flatMap (reputationItems cast s now f)).map (·.hidden) := by
  have hmem (db : ReputationDb) : ∀ r ∈ reputationRows cast db f, r ∈ db.reputation.rows := by
    intro r hr
    exact ((mem_reputationRows hpos hc hf).mp hr).1
  have hips := map_ip_reputationRows h hpos hc hf ha
  rw [flatMap_by_ip (hmem s'), flatMap_by_ip (hmem s), hips, List.map_flatMap, List.map_flatMap]
  refine List.flatMap_congr fun ip hip => ?_
  obtain ⟨r', hr', hip'⟩ := List.mem_map.mp (hips.symm ▸ hip)
  obtain ⟨r, hr, rfl⟩ := List.mem_map.mp hip
  have hrow := (mem_reputationRows hpos hc hf).mp hr
  rw [find_of_mem hrow.1, ← hip', find_of_mem (hmem s' r' hr')]
  exact hidden_reputationItems h hc hpos hf hrow.1 (hmem s' r' hr') hip' hrow.2.1 (ha r.ip)

theorem hidden_bannedItems (ha : ∀ ip, Agree cast now tenantId s s' ip) :
    (bannedItems cast s' now f).map (·.hidden) = (bannedItems cast s now f).map (·.hidden) := by
  have hbans : s'.bans = s.bans := by rw [h.tables]
  have hexcluded (b : ListedBan) : isExcludedBy s' (some tenantId) b = isExcludedBy s (some tenantId) b := by
    rw [h.tables]
    rfl
  rw [bannedItems, bannedItems, hf, readTenantsFor_customer hpos hc, hbans]
  generalize hrows : s.bans.filter _ = rows
  have hgeo : ∀ b ∈ rows, geoAt s b.target.ip = geoAt s' b.target.ip := by
    intro b hb
    rw [← hrows, List.mem_filter, Bool.and_eq_true, Bool.and_eq_true, Bool.and_eq_true] at hb
    obtain ⟨hmem, ⟨⟨hactive, hunexpired⟩, hsees⟩, -⟩ := hb
    refine (ha b.target.ip).geo (.inr (List.ne_nil_of_mem (a := b) ?_))
    rw [activeBansAt, List.mem_filter, hactive, hunexpired, hsees, decide_eq_true rfl]
    exact ⟨hmem, rfl⟩
  rw [orderRows_congr fun b hb => orderValue_eq h _ b.target.ip (some b) (hgeo b hb), List.map_map, List.map_map]
  refine List.map_congr_left fun b hb => ?_
  rw [mem_orderRows] at hb
  rw [Function.comp_apply, Function.comp_apply, bannedItem, bannedItem]
  refine hidden_attributed h _ ?_
  simp only [IpReputation.withBan, rowToReputation, bannedRow_ip, bannedRow_geo, hgeo b hb, hexcluded]

theorem hidden_list (ha : ∀ ip, Agree cast now tenantId s s' ip) :
    (list cast s' now f).hidden = (list cast s now f).hidden := by
  rw [list, list, hidden_page, hidden_page]
  split
  · rw [hidden_bannedItems h hpos hc hf ha]
  · rw [hidden_reputationList h hpos hc hf ha]

end customer

/-! ## The status of one address -/

/-- What the counter and the tenant's clear give. -/
def counterStatus (clr : Option TenantClear) (total : Nat) : IpStatus × Bool :=
  if total ≤ 0 then (.clean, false)
  else match clr with
    | none => (.suspicious, false)
    | some clr => (if total > clr.baselineFailures then .suspicious else .clean, true)

theorem counterStatus_eq_iff {clr : Option TenantClear} {m n : Nat} : counterStatus clr m = counterStatus clr n ↔
    (0 < m ↔ 0 < n) ∧ ∀ c, clr = some c → (c.baselineFailures < m ↔ c.baselineFailures < n) := by
  cases clr with
  | none =>
    simp only [counterStatus]
    split <;> split <;> simp <;> omega
  | some c =>
    simp only [counterStatus, Option.some.injEq, forall_eq']
    split <;> split <;> simp <;> grind

section status
variable {db : ReputationDb} {text : String} {ip : Inet}

theorem statusFor_decides (hd : CounterDecides now tenantId db ip) (row : Option ReputationRow) :
    statusFor db now text ip row (.only [tenantId]) (some tenantId) =
      counterStatus (db.clears.find (text, tenantId)) ((row.map (·.totalFailures)).getD 0) := by
  rw [statusFor, hd.1, hd.2]
  rfl

theorem statusFor_of_not_decides (hd : ¬CounterDecides now tenantId db ip) (row row' : Option ReputationRow) :
    statusFor db now text ip row (.only [tenantId]) (some tenantId) =
      statusFor db now text ip row' (.only [tenantId]) (some tenantId) := by
  rw [statusFor, statusFor]
  by_cases hban : activeBansAt db now (.only [tenantId]) ip = []
  · have hw : (whitelistEntry db (.only [tenantId]) ip).isSome := by
      rw [Option.isSome_iff_ne_none]
      intro hw
      exact hd ⟨hban, hw⟩
    simp only [hw, if_true]
  · have hempty : (activeBansAt db now (.only [tenantId]) ip).isEmpty = false := by
      rwa [List.isEmpty_eq_false_iff]
    simp only [hempty, if_true]

theorem detailStatus_customer (hpos : 0 < tenantId) (hc : isMasterTenant tenantId = false)
    (htext : cast text = some ip) : detailStatus cast db now (some tenantId) text =
      some (statusFor db now text ip (db.reputation.find ip) (.only [tenantId]) (some tenantId)) := by
  rw [detailStatus, htext, Option.map_some, readTenantsFor_customer hpos hc, clearTenantOf_customer hc]

theorem detailStatus_clearForTenant (hpos : 0 < tenantId) (hc : isMasterTenant tenantId = false)
    (htext : cast text = some ip) (hd : CounterDecides now tenantId db ip) :
    (detailStatus cast (clearForTenant db text ip tenantId) now (some tenantId) text).map (·.1) = some .clean := by
  have hd' : CounterDecides now tenantId (clearForTenant db text ip tenantId) ip := hd
  rw [detailStatus_customer hpos hc htext, statusFor_decides hd', Option.map_some]
  have hreputation : (clearForTenant db text ip tenantId).reputation = db.reputation := rfl
  have hfind : ∃ c, (clearForTenant db text ip tenantId).clears.find (text, tenantId) = some c ∧
      c.baselineFailures = ((db.reputation.find ip).map (·.totalFailures)).getD 0 := by
    rw [clearForTenant, Keyed.find_upsert]
    refine ⟨_, if_pos rfl, ?_⟩
    cases db.clears.find (text, tenantId) <;> rfl
  obtain ⟨c, hfind, hbaseline⟩ := hfind
  rw [hfind, hreputation, ← hbaseline, counterStatus]
  split
  · rfl
  · simp only [gt_iff_lt, lt_irrefl, if_false]

end status

theorem detailStatus_eq_iff (h : DifferOutside tenantId s s') (hpos : 0 < tenantId)
    (hc : isMasterTenant tenantId = false) {text : String} {ip : Inet} (htext : cast text = some ip) :
    detailStatus cast s' now (some tenantId) text = detailStatus cast s now (some tenantId) text ↔
      (CounterDecides now tenantId s ip → (0 < failuresAt s' ip ↔ 0 < failuresAt s ip) ∧
        ∀ clr, s.clears.find (text, tenantId) = some clr →
          (clr.baselineFailures < failuresAt s' ip ↔ clr.baselineFailures < failuresAt s ip)) := by
  have hstatus (row : Option ReputationRow) : statusFor s' now text ip row (.only [tenantId]) (some tenantId) =
      statusFor s now text ip row (.only [tenantId]) (some tenantId) := by
    rw [h.tables]
    rfl
  rw [detailStatus_customer hpos hc htext, detailStatus_customer hpos hc htext, Option.some.injEq, hstatus]
  by_cases hd : CounterDecides now tenantId s ip
  · rw [statusFor_decides hd, statusFor_decides hd, counterStatus_eq_iff, forall_prop_of_true hd]
    rfl
  · exact iff_of_true (statusFor_of_not_decides hd _ _) fun hd' => absurd hd' hd

theorem detailStatus_eq (h : DifferOutside tenantId s s') (hpos : 0 < tenantId) (hc : isMasterTenant tenantId = false)
    (ha : ∀ ip, Agree cast now tenantId s s' ip) (text : String) :
    detailStatus cast s' now (some tenantId) text = detailStatus cast s now (some tenantId) text := by
  cases htext : cast text with
  | none => rw [detailStatus, detailStatus, htext, Option.map_none, Option.map_none]
  | some ip =>
    refine (detailStatus_eq_iff h hpos hc htext).mpr fun hd => ?_
    refine ⟨((ha ip).failing hd (.inr ⟨text, htext⟩)).symm, ?_⟩
    intro clr hclr
    obtain ⟨hmem, hkey⟩ := Keyed.find_eq_some.mp hclr
    obtain ⟨htext', ht⟩ := Prod.mk.inj hkey
    exact ((ha ip).cleared hd clr hmem ht (htext'.symm ▸ htext)).symm

/-! ## What the lists show -/

/-- A request without filters. -/
def plainFilters (tenantId : Nat) (status : Option IpStatus) : ListFilters :=
  ⟨some tenantId, false, [], status, none, none, none, none, none⟩

/-- The answers to the tenant's requests, but for `updated_at`. -/
structure SameAnswers (cast : String → Option Inet) (now : Int) (tenantId : Nat) (s s' : ReputationDb) : Prop where
  list : ∀ f : ListFilters, f.tenantId = some tenantId → (list cast s' now f).hidden = (list cast s now f).hidden
  status : ∀ text, detailStatus cast s' now (some tenantId) text = detailStatus cast s now (some tenantId) text

section shown
variable (hpos : 0 < tenantId) (hc : isMasterTenant tenantId = false)

theorem SameAnswers.symm (h : SameAnswers cast now tenantId s s') : SameAnswers cast now tenantId s' s where
  list := fun f hf => (h.list f hf).symm
  status := fun text => (h.status text).symm

theorem reputationItem_ip (db : ReputationDb) (r : ReputationRow) (clr : Option TenantClear) :
    (reputationItem db now (.only [tenantId]) (some tenantId) r clr).ip = r.ip := by
  rw [reputationItem]
  cases activeBan db now (.only [tenantId]) (some tenantId) r.ip <;> rfl

theorem reputationItem_geo (db : ReputationDb) (r : ReputationRow) (clr : Option TenantClear) :
    (reputationItem db now (.only [tenantId]) (some tenantId) r clr).geo = r.geo := by
  rw [reputationItem]
  cases activeBan db now (.only [tenantId]) (some tenantId) r.ip <;> rfl

theorem reputationItem_status (db : ReputationDb) (r : ReputationRow) (clr : Option TenantClear) :
    (reputationItem db now (.only [tenantId]) (some tenantId) r clr).status =
      computedStatus (activeBan db now (.only [tenantId]) (some tenantId) r.ip)
        (whitelistEntry db (.only [tenantId]) r.ip) clr r.totalFailures := by
  rw [reputationItem]
  cases activeBan db now (.only [tenantId]) (some tenantId) r.ip <;> rfl

include hpos hc

theorem mem_plainItems {db : ReputationDb} {x : IpReputationListItem} :
    x ∈ (reputationRows cast db (plainFilters tenantId none)).flatMap
        (reputationItems cast db now (plainFilters tenantId none)) ↔
      ∃ r ∈ db.reputation.rows, readEvents db (.only [tenantId]) r.ip ≠ [] ∧
        ∃ clr ∈ joinedClears cast db (some tenantId) r.ip,
          reputationItem db now (.only [tenantId]) (some tenantId) r clr = x := by
  have hitems (r : ReputationRow) : x ∈ reputationItems cast db now (plainFilters tenantId none) r ↔
      ∃ clr ∈ joinedClears cast db (some tenantId) r.ip,
        reputationItem db now (.only [tenantId]) (some tenantId) r clr = x := by
    rw [reputationItems, plainFilters, readTenantsFor_customer hpos hc, clearTenantOf_customer hc, List.mem_filter,
      List.mem_map]
    exact and_iff_left rfl
  have hrows (r : ReputationRow) : r ∈ reputationRows cast db (plainFilters tenantId none) ↔
      r ∈ db.reputation.rows ∧ readEvents db (.only [tenantId]) r.ip ≠ [] := by
    rw [mem_reputationRows hpos hc rfl]
    exact and_congr_right fun _ => and_iff_left rfl
  simp only [List.mem_flatMap, hitems, hrows, and_assoc]

theorem row_of_same (h : DifferOutside tenantId s s') (hsame : SameAnswers cast now tenantId s s') {r : ReputationRow}
    (hr : r ∈ s.reputation.rows) (hev : readEvents s (.only [tenantId]) r.ip ≠ []) {clr : Option TenantClear}
    (hclr : clr ∈ joinedClears cast s (some tenantId) r.ip) :
    ∃ r' ∈ s'.reputation.rows, r'.ip = r.ip ∧ r'.geo = r.geo ∧
      ∃ clr' ∈ joinedClears cast s (some tenantId) r.ip,
        (reputationItem s' now (.only [tenantId]) (some tenantId) r' clr').status =
          (reputationItem s now (.only [tenantId]) (some tenantId) r clr).status := by
  have hlists : ((reputationRows cast s' (plainFilters tenantId none)).flatMap
      (reputationItems cast s' now (plainFilters tenantId none))).map (·.hidden) =
        ((reputationRows cast s (plainFilters tenantId none)).flatMap
          (reputationItems cast s now (plainFilters tenantId none))).map (·.hidden) := by
    refine eq_of_pages (f := plainFilters tenantId none) fun k => ?_
    rw [← hidden_page, ← hidden_page]
    exact hsame.list { plainFilters tenantId none with limit := some 1, offset := some k } rfl
  have hx : reputationItem s now (.only [tenantId]) (some tenantId) r clr ∈
      (reputationRows cast s (plainFilters tenantId none)).flatMap
        (reputationItems cast s now (plainFilters tenantId none)) :=
    (mem_plainItems hpos hc).mpr ⟨r, hr, hev, clr, hclr, rfl⟩
  have hmem := List.mem_map_of_mem (f := (·.hidden)) hx
  rw [← hlists] at hmem
  obtain ⟨x', hx', hhidden⟩ := List.mem_map.mp hmem
  obtain ⟨r', hr', -, clr', hclr', rfl⟩ := (mem_plainItems hpos hc).mp hx'
  have hip : (reputationItem s' now (.only [tenantId]) (some tenantId) r' clr').ip =
      (reputationItem s now (.only [tenantId]) (some tenantId) r clr).ip := congrArg (·.ip) hhidden
  have hgeo : (reputationItem s' now (.only [tenantId]) (some tenantId) r' clr').geo =
      (reputationItem s now (.only [tenantId]) (some tenantId) r clr).geo := congrArg (·.geo) hhidden
  rw [reputationItem_ip, reputationItem_ip] at hip
  rw [reputationItem_geo, reputationItem_geo] at hgeo
  rw [joinedClears_eq h, hip] at hclr'
  exact ⟨r', hr', hip, hgeo, clr', hclr', congrArg (·.status) hhidden⟩

theorem geoAt_of_ban (hsame : SameAnswers cast now tenantId s s') {ip : Inet}
    (hban : activeBansAt s now (.only [tenantId]) ip ≠ []) : geoAt s ip = geoAt s' ip := by
  have hitem (db : ReputationDb) (b : ListedBan) :
      (bannedItem db (.only [tenantId]) (some tenantId) b).ip = b.target.ip ∧
        (bannedItem db (.only [tenantId]) (some tenantId) b).geo = geoAt db b.target.ip :=
    ⟨bannedRow_ip db _ b.bannedAt, bannedRow_geo db _ b.bannedAt⟩
  have hlists : (bannedItems cast s' now (plainFilters tenantId (some .banned))).map (·.hidden) =
      (bannedItems cast s now (plainFilters tenantId (some .banned))).map (·.hidden) := by
    refine eq_of_pages (f := plainFilters tenantId (some .banned)) fun k => ?_
    rw [← hidden_page, ← hidden_page]
    exact hsame.list { plainFilters tenantId (some .banned) with limit := some 1, offset := some k } rfl
  obtain ⟨b, hb⟩ := List.exists_mem_of_ne_nil _ hban
  rw [activeBansAt, List.mem_filter, Bool.and_eq_true, Bool.and_eq_true, Bool.and_eq_true, decide_eq_true_eq] at hb
  obtain ⟨hmem, ⟨⟨rfl, hactive⟩, hunexpired⟩, hsees⟩ := hb
  have hx : bannedItem s (.only [tenantId]) (some tenantId) b ∈
      bannedItems cast s now (plainFilters tenantId (some .banned)) := by
    rw [bannedItems, plainFilters, readTenantsFor_customer hpos hc]
    refine List.mem_map_of_mem (mem_orderRows.mpr (List.mem_filter.mpr ⟨hmem, ?_⟩))
    rw [hactive, hunexpired, hsees]
    rfl
  have hx := List.mem_map_of_mem (f := (·.hidden)) hx
  rw [← hlists] at hx
  obtain ⟨x', hx', hhidden⟩ := List.mem_map.mp hx
  rw [bannedItems, plainFilters, readTenantsFor_customer hpos hc] at hx'
  obtain ⟨b', -, rfl⟩ := List.mem_map.mp hx'
  have hip : b'.target.ip = b.target.ip := by
    rw [← (hitem s' b').1, ← (hitem s b).1]
    exact congrArg (·.ip) hhidden
  rw [← hip, ← (hitem s' b').2, hip, ← (hitem s b).2]
  exact congrArg (·.geo) hhidden.symm

theorem find_isSome_of_same (h : DifferOutside tenantId s s') (hsame : SameAnswers cast now tenantId s s') {ip : Inet}
    (hev : readEvents s (.only [tenantId]) ip ≠ []) (hrow : (s.reputation.find ip).isSome = true) :
    (s'.reputation.find ip).isSome = true := by
  obtain ⟨r, hr⟩ := Option.isSome_iff_exists.mp hrow
  obtain ⟨hmem, rfl⟩ := Keyed.find_eq_some.mp hr
  obtain ⟨clr, hclr⟩ := List.exists_mem_of_ne_nil _ (joinedClears_ne_nil cast s (some tenantId) r.ip)
  obtain ⟨r', hr', hip, -⟩ := row_of_same hpos hc h hsame hmem hev hclr
  rw [← hip, find_of_mem hr', Option.isSome_some]

theorem listed_of_same (h : DifferOutside tenantId s s') (hsame : SameAnswers cast now tenantId s s') {ip : Inet}
    (hev : readEvents s (.only [tenantId]) ip ≠ []) :
    (s.reputation.find ip).isSome = (s'.reputation.find ip).isSome := by
  rw [Bool.eq_iff_iff]
  constructor
  · exact find_isSome_of_same hpos hc h hsame hev
  · exact find_isSome_of_same hpos hc h.symm hsame.symm (readEvents_eq h ip ▸ hev)

theorem find_none_of_same (h : DifferOutside tenantId s s') (hsame : SameAnswers cast now tenantId s s') {ip : Inet}
    (hev : readEvents s (.only [tenantId]) ip ≠ []) (hrow : s.reputation.find ip = none) :
    s'.reputation.find ip = none := by
  have hlisted := listed_of_same hpos hc h hsame hev
  rwa [hrow, Option.isSome_none, eq_comm, Option.isSome_eq_false_iff, Option.isNone_iff_eq_none] at hlisted

theorem geoAt_of_same (h : DifferOutside tenantId s s') (hsame : SameAnswers cast now tenantId s s') {ip : Inet}
    (hev : readEvents s (.only [tenantId]) ip ≠ []) : geoAt s ip = geoAt s' ip := by
  cases hrow : s.reputation.find ip with
  | none => rw [geoAt, geoAt, hrow, find_none_of_same hpos hc h hsame hev hrow]
  | some r =>
    obtain ⟨hmem, rfl⟩ := Keyed.find_eq_some.mp hrow
    obtain ⟨clr, hclr⟩ := List.exists_mem_of_ne_nil _ (joinedClears_ne_nil cast s (some tenantId) r.ip)
    obtain ⟨r', hr', hip, hgeo, -⟩ := row_of_same hpos hc h hsame hmem hev hclr
    rw [geoAt_of_mem hmem, ← hip, geoAt_of_mem hr', hgeo]

theorem failing_of_same (h : DifferOutside tenantId s s') (hsame : SameAnswers cast now tenantId s s') {ip : Inet}
    (hd : CounterDecides now tenantId s ip)
    (hread : readEvents s (.only [tenantId]) ip ≠ [] ∨ ∃ text, cast text = some ip) :
    0 < failuresAt s ip ↔ 0 < failuresAt s' ip := by
  by_cases htext : ∃ text, cast text = some ip
  · obtain ⟨text, htext⟩ := htext
    exact ((detailStatus_eq_iff h hpos hc htext).mp (hsame.status text) hd).1.symm
  have hev := hread.resolve_right htext
  cases hrow : s.reputation.find ip with
  | none => rw [failuresAt, failuresAt, hrow, find_none_of_same hpos hc h hsame hev hrow]
  | some r =>
    obtain ⟨hmem, rfl⟩ := Keyed.find_eq_some.mp hrow
    -- no text is the address, so no clear is joined
    have hnone : ∀ c ∈ s.clears.rows, some tenantId = some c.tenantId → cast c.ip ≠ some r.ip :=
      fun c _ _ hcast => htext ⟨c.ip, hcast⟩
    obtain ⟨r', hr', hip, -, clr', hclr', hstatus⟩ :=
      row_of_same hpos hc h hsame hmem hev (mem_joinedClears.mpr (.inl ⟨rfl, hnone⟩))
    obtain ⟨rfl, -⟩ | ⟨c, hc', -, ht, hcast⟩ := mem_joinedClears.mp hclr'
    · rw [reputationItem_status, reputationItem_status, hip, activeBan_eq h, whitelistEntry_eq h,
        activeBan_eq_none.mpr hd.1, hd.2] at hstatus
      rw [failuresAt_of_mem hmem, ← hip, failuresAt_of_mem hr']
      exact (computedStatus_none_eq_iff.mp hstatus).symm
    · exact absurd hcast (hnone c hc' ht)

theorem agree_of_same (h : DifferOutside tenantId s s') (hsame : SameAnswers cast now tenantId s s') (ip : Inet) :
    Agree cast now tenantId s s' ip where
  listed := listed_of_same hpos hc h hsame
  geo := by
    rintro (hev | hban)
    · exact geoAt_of_same hpos hc h hsame hev
    · exact geoAt_of_ban hpos hc hsame hban
  failing := failing_of_same hpos hc h hsame
  cleared := by
    intro hd clr hclr ht hcast
    have hfind : s.clears.find (clr.ip, tenantId) = some clr :=
      Keyed.find_eq_some.mpr ⟨hclr, by rw [TenantClear.key, ht]⟩
    exact (((detailStatus_eq_iff h hpos hc hcast).mp (hsame.status clr.ip) hd).2 clr hfind).symm

end shown

end two

/-! ## Pushes of other tenants -/

structure Push where
  now : Int
  tenantId : Nat
  deviceId : Nat
  events : List LogEvent

def pushAll (db : ReputationDb) (pushes : List Push) : ReputationDb :=
  pushes.foldl (fun db p => pushEvents db p.now p.tenantId p.deviceId p.events) db

theorem DifferOutside.refl (tenantId : Nat) (s : ReputationDb) : DifferOutside tenantId s s := ⟨rfl, rfl⟩

theorem DifferOutside.trans {tenantId : Nat} {s s' s'' : ReputationDb} (h : DifferOutside tenantId s s')
    (h' : DifferOutside tenantId s' s'') : DifferOutside tenantId s s'' := by
  refine ⟨?_, h.own.trans h'.own⟩
  rw [h'.tables, h.tables]

theorem differOutside_pushEvents {tenantId t : Nat} (ht : t ≠ tenantId) (s : ReputationDb) (now : Int)
    (deviceId : Nat) (events : List LogEvent) : DifferOutside tenantId s (pushEvents s now t deviceId events) := by
  refine ⟨rfl, ?_⟩
  have hnone : (events.map fun ev => { ev with tenantId := some t, deviceId := some deviceId }).filter
      (fun e => e.tenantId = some tenantId) = [] := by
    rw [List.filter_eq_nil_iff]
    intro e he
    obtain ⟨ev, -, rfl⟩ := List.mem_map.mp he
    simpa using ht
  rw [pushEvents, List.filter_append, hnone, List.append_nil]

theorem differOutside_pushAll {tenantId : Nat} {pushes : List Push} (h : ∀ p ∈ pushes, p.tenantId ≠ tenantId)
    (s : ReputationDb) : DifferOutside tenantId s (pushAll s pushes) := by
  induction pushes generalizing s with
  | nil => exact .refl tenantId s
  | cons p pushes ih =>
    have hp := differOutside_pushEvents (h p List.mem_cons_self) s p.now p.deviceId p.events
    exact hp.trans (ih (fun q hq => h q (List.mem_cons_of_mem _ hq)) _)

/-- A row stays, with its GeoIP columns, and its counter only grows. -/
def Keeps (t t' : Keyed ReputationRow.ip) : Prop :=
  ∀ ip r, t.find ip = some r → ∃ r', t'.find ip = some r' ∧ r'.geo = r.geo ∧ r.totalFailures ≤ r'.totalFailures

theorem Keeps.refl (t : Keyed ReputationRow.ip) : Keeps t t := fun _ r hr => ⟨r, hr, rfl, le_rfl⟩

theorem Keeps.trans {t t' t'' : Keyed ReputationRow.ip} (h : Keeps t t') (h' : Keeps t' t'') : Keeps t t'' := by
  intro ip r hr
  obtain ⟨r', hr', hgeo, hle⟩ := h ip r hr
  obtain ⟨r'', hr'', hgeo', hle'⟩ := h' ip r' hr'
  exact ⟨r'', hr'', hgeo'.trans hgeo, hle.trans hle'⟩

theorem keeps_upsert (t : Keyed ReputationRow.ip) (row : ReputationRow) :
    Keeps t (t.upsert row (fun _ => true) (mergeRow row) (mergeRow_ip row)) := by
  intro ip r hr
  rw [Keyed.find_upsert, hr]
  split
  · exact ⟨_, rfl, rfl, Nat.le_add_right _ _⟩
  · exact ⟨r, rfl, rfl, le_rfl⟩

theorem keeps_upsertFromEvents (now : Int) (events : List BatchEvent) (t : Keyed ReputationRow.ip) :
    Keeps t (upsertFromEvents now events t) := by
  rw [upsertFromEvents]
  generalize distinct (events.map (·.ip)) = ips
  induction ips generalizing t with
  | nil => exact .refl t
  | cons ip ips ih => exact (keeps_upsert t _).trans (ih _)

theorem keeps_pushAll (s : ReputationDb) (pushes : List Push) : Keeps s.reputation (pushAll s pushes).reputation := by
  induction pushes generalizing s with
  | nil => exact .refl _
  | cons p pushes ih =>
    have hp : Keeps s.reputation (pushEvents s p.now p.tenantId p.deviceId p.events).reputation :=
      keeps_upsertFromEvents _ _ _
    exact hp.trans (ih _)

/-- Where the tenant's events and the visible bans have rows, pushes of other tenants show in the counters only. -/
theorem sameAnswers_pushAll_iff {cast : String → Option Inet} {now : Int} {tenantId : Nat} (hpos : 0 < tenantId)
    (hc : isMasterTenant tenantId = false) {s : ReputationDb} {pushes : List Push}
    (h : ∀ p ∈ pushes, p.tenantId ≠ tenantId)
    (hrows : ∀ ip, readEvents s (.only [tenantId]) ip ≠ [] ∨ activeBansAt s now (.only [tenantId]) ip ≠ [] →
      (s.reputation.find ip).isSome = true) :
    SameAnswers cast now tenantId s (pushAll s pushes) ↔ ∀ ip, CounterDecides now tenantId s ip →
      ((readEvents s (.only [tenantId]) ip ≠ [] ∨ ∃ text, cast text = some ip) →
        (0 < failuresAt s ip ↔ 0 < failuresAt (pushAll s pushes) ip)) ∧
      ∀ clr ∈ s.clears.rows, clr.tenantId = tenantId → cast clr.ip = some ip →
        (clr.baselineFailures < failuresAt s ip ↔ clr.baselineFailures < failuresAt (pushAll s pushes) ip) := by
  have hdiffer := differOutside_pushAll h s
  constructor
  · intro hsame ip hd
    have ha := agree_of_same hpos hc hdiffer hsame ip
    exact ⟨ha.failing hd, ha.cleared hd⟩
  · intro hcounters
    have ha (ip : Inet) : Agree cast now tenantId s (pushAll s pushes) ip := by
      have hkept := keeps_pushAll s pushes ip
      refine ⟨?_, ?_, fun hd => (hcounters ip hd).1, fun hd => (hcounters ip hd).2⟩
      · intro hev
        obtain ⟨r, hr⟩ := Option.isSome_iff_exists.mp (hrows ip (.inl hev))
        obtain ⟨r', hr', -⟩ := hkept r hr
        rw [hr, hr', Option.isSome_some, Option.isSome_some]
      · intro hshown
        obtain ⟨r, hr⟩ := Option.isSome_iff_exists.mp (hrows ip hshown)
        obtain ⟨r', hr', hgeo, -⟩ := hkept r hr
        rw [geoAt, geoAt, hr, hr', Option.map_some, Option.map_some, hgeo]
    exact ⟨fun f hf => hidden_list hdiffer hpos hc hf ha, detailStatus_eq hdiffer hpos hc ha⟩

/-! ## The answers -/

/-- A customer tenant reads the same from two databases that differ outside it, exactly when the shared rows agree in
what it reads of them. -/
theorem sameAnswers_iff (cast : String → Option Inet) (now : Int) {tenantId : Nat} (hpos : 0 < tenantId)
    (hc : isMasterTenant tenantId = false) {s s' : ReputationDb} (h : DifferOutside tenantId s s') :
    SameAnswers cast now tenantId s s' ↔ ∀ ip, Agree cast now tenantId s s' ip := by
  constructor
  · exact agree_of_same hpos hc h
  · intro ha
    exact ⟨fun f hf => hidden_list h hpos hc hf ha, detailStatus_eq h hpos hc ha⟩

def probedIp : Inet := ⟨.v4, 3325256711, 32, sampleHost.addr_lt, sampleHost.len_le⟩

/-- The cast, on the text of this address. -/
def probedCast (text : String) : Option Inet := if text = "198.51.100.7" then some probedIp else none

def probedEvent (eventType : LogEventType) : LogEvent := ⟨probedIp, none, none, "ssh", some "root", eventType, 5⟩

/-- A device of tenant 2 has reported a successful login. -/
def loggedIn : ReputationDb :=
  pushEvents ⟨.empty, [], [], [], [], .empty, fun _ => none⟩ 10 2 5 [probedEvent .authSuccess]

/-- A device of tenant 3 reports a failure from the same address. -/
def probedElsewhere : ReputationDb := pushEvents loggedIn 20 3 6 [probedEvent .authFailure]

theorem not_agree_probed : ¬∀ ip, Agree probedCast 30 2 loggedIn probedElsewhere ip := by
  intro ha
  have hdiffer : DifferOutside 2 loggedIn probedElsewhere := differOutside_pushEvents (by decide) _ _ _ _
  have hsame := (sameAnswers_iff probedCast 30 (by decide) (by decide) hdiffer).mpr ha
  have hstatus : detailStatus probedCast probedElsewhere 30 (some 2) "198.51.100.7" ≠
      detailStatus probedCast loggedIn 30 (some 2) "198.51.100.7" := by decide +kernel
  exact hstatus (hsame.status "198.51.100.7")

/-- The failure turns the status that tenant 2 reads from clean to suspicious. -/
theorem pushEvents_suspicious : DifferOutside 2 loggedIn probedElsewhere ∧
    (list probedCast loggedIn 30 (plainFilters 2 none)).data.map (·.status) = [.clean] ∧
    (list probedCast probedElsewhere 30 (plainFilters 2 none)).data.map (·.status) = [.suspicious] ∧
    detailStatus probedCast loggedIn 30 (some 2) "198.51.100.7" = some (.clean, false) ∧
    detailStatus probedCast probedElsewhere 30 (some 2) "198.51.100.7" = some (.suspicious, false) :=
  ⟨differOutside_pushEvents (by decide) _ _ _ _, by decide +kernel, by decide +kernel, by decide +kernel,
    by decide +kernel⟩

end Obliguard.Server

import Mathlib.Data.List.Infix
import Mathlib.Data.List.Lex
import Mathlib.Data.List.Sort
import Mathlib.Data.Prod.Lex
import Mathlib.Data.String.Basic
import Mathlib.Data.Sum.Order
import Mathlib.Order.WithBot
import Obliguard.Lib.Keyed
import Obliguard.Server.IpValidation
import Obliguard.Server.Schema

/-!
# IP reputation

`upsertFromEvents`, `clearForTenant`, `list` and `statusFor` of `server/src/services/ipReputation.service.ts`, over
the tables they read and write. The rows of `ip_reputation` count the events of all tenants; the list of a tenant
other than Default shows totals of its own events, and a status that compares the shared counter with the value it
had when the tenant cleared the address.

The cast of a text to `inet` is a parameter. `ORDER BY` on the rows of one address, of which the join with the clears
can give several, keeps the order of the clears.
-/

namespace Obliguard.Server

open Bans IpValidation

/-! ## Rows -/

/-- The columns that the GeoIP enrichment fills. -/
structure Geo where
  countryCode : Option String
  city : Option String
  asn : Option String
deriving DecidableEq

structure ReputationRow where
  ip : Inet
  totalFailures : Nat
  totalSuccesses : Nat
  affectedDeviceIds : List Nat
  affectedAgentsCount : Nat
  affectedServices : List String
  attemptedUsernames : List String
  firstSeen : Option Int
  lastSeen : Option Int
  lastEventDeviceId : Option Nat
  geo : Geo
  updatedAt : Int

inductive LogEventType
  | authFailure
  | authSuccess
  | other
deriving DecidableEq

/-- A row of `ip_events`. -/
structure LogEvent where
  ip : Inet
  tenantId : Option Nat
  deviceId : Option Nat
  service : String
  username : Option String
  eventType : LogEventType
  timestamp : Int
deriving DecidableEq

structure ListedBan extends BanRow where
  bannedAt : Int

/-- A row of `ip_reputation_tenant_clears`; its `ip` is a text. -/
structure TenantClear where
  ip : String
  tenantId : Nat
  baselineFailures : Nat
deriving DecidableEq

/-- `unique(['ip', 'tenant_id'])`. -/
def TenantClear.key (clr : TenantClear) : String × Nat := (clr.ip, clr.tenantId)

def TenantClear.withBaseline (baseline : Nat) (clr : TenantClear) : TenantClear :=
  { clr with baselineFailures := baseline }

theorem TenantClear.withBaseline_key (baseline : Nat) (clr : TenantClear) :
    (clr.withBaseline baseline).key = clr.key := rfl

structure ReputationDb where
  reputation : Keyed ReputationRow.ip
  events : List LogEvent
  bans : List ListedBan
  exclusions : List Exclusion
  whitelist : List WhitelistRow
  clears : Keyed TenantClear.key
  tenantName : Nat → Option String

/-! ## Writes -/

/-- `array_agg(DISTINCT ...)`, sorted. -/
def aggDistinct {α : Type} [LinearOrder α] (l : List α) : List α := (distinct l).insertionSort (· ≤ ·)

/-- An event of a batch. -/
structure BatchEvent where
  ip : Inet
  service : String
  username : Option String
  deviceId : Nat
  eventType : LogEventType

/-- The events of a batch from one address: the inserted row. -/
def batchRow (now : Int) (ip : Inet) (events : List BatchEvent) : ReputationRow where
  ip := ip
  totalFailures := events.countP fun ev => ev.eventType = .authFailure
  totalSuccesses := events.countP fun ev => ev.eventType = .authSuccess
  affectedDeviceIds := (events.getLast?.map (·.deviceId)).toList
  affectedAgentsCount := 1
  affectedServices := distinct (events.map (·.service))
  attemptedUsernames := distinct ((events.filterMap (·.username)).filter (· ≠ ""))
  firstSeen := some now
  lastSeen := some now
  lastEventDeviceId := events.getLast?.map (·.deviceId)
  geo := ⟨none, none, none⟩
  updatedAt := now

/-- `LEAST` and `GREATEST`. -/
def ignoringNull (f : Int → Int → Int) : Option Int → Option Int → Option Int
  | some a, some b => some (f a b)
  | a, b => a.or b

/-- `ON CONFLICT (ip) DO UPDATE`. -/
def mergeRow (excluded row : ReputationRow) : ReputationRow :=
  let deviceIds := aggDistinct (row.affectedDeviceIds ++ excluded.affectedDeviceIds)
  { row with
    totalFailures := row.totalFailures + excluded.totalFailures
    totalSuccesses := row.totalSuccesses + excluded.totalSuccesses
    affectedDeviceIds := deviceIds
    affectedAgentsCount := deviceIds.length
    affectedServices := aggDistinct (row.affectedServices ++ excluded.affectedServices)
    attemptedUsernames := aggDistinct (row.attemptedUsernames ++ excluded.attemptedUsernames)
    firstSeen := ignoringNull min row.firstSeen excluded.firstSeen
    lastSeen := ignoringNull max row.lastSeen excluded.lastSeen
    lastEventDeviceId := excluded.lastEventDeviceId
    updatedAt := excluded.updatedAt }

theorem mergeRow_ip (excluded row : ReputationRow) : (mergeRow excluded row).ip = row.ip := rfl

def upsertFromEvents (now : Int) (events : List BatchEvent) (reputation : Keyed ReputationRow.ip) :
    Keyed ReputationRow.ip :=
  (distinct (events.map (·.ip))).foldl (fun t ip =>
    t.upsert (batchRow now ip (events.filter fun ev => ev.ip = ip)) (fun _ => true)
      (mergeRow (batchRow now ip (events.filter fun ev => ev.ip = ip))) (mergeRow_ip _)) reputation

/-- A push of a tenant's device: its events are stored and counted. -/
def pushEvents (db : ReputationDb) (now : Int) (tenantId deviceId : Nat) (events : List LogEvent) : ReputationDb :=
  { db with
    events := db.events ++ events.map fun ev => { ev with tenantId := some tenantId, deviceId := some deviceId }
    reputation := upsertFromEvents now
      (events.map fun ev => ⟨ev.ip, ev.service, ev.username, deviceId, ev.eventType⟩) db.reputation }

/-- The tenant's baseline becomes the counter; `ip` is the address of the text. -/
def clearForTenant (db : ReputationDb) (text : String) (ip : Inet) (tenantId : Nat) : ReputationDb :=
  let baseline := ((db.reputation.find ip).map (·.totalFailures)).getD 0
  { db with
    clears := db.clears.upsert ⟨text, tenantId, baseline⟩ (fun _ => true) (TenantClear.withBaseline baseline)
      (TenantClear.withBaseline_key baseline) }

/-! ## Read scope -/

inductive ReadTenants
  | all
  | only (ids : List Nat)

def readTenantsFor (tenantId : Option Nat) (requested : List Nat) : ReadTenants :=
  match tenantId with
  | none => .only []
  | some t =>
    if t = 0 then .only []
    else if !isMasterTenant t then .only [t]
    else if requested = [] then .all
    else .only (distinct requested)

/-- `whereReadTenants`. -/
def ReadTenants.reads : ReadTenants → Option Nat → Bool
  | all, _ => true
  | only ids, tenantId => tenantId.any fun t => decide (t ∈ ids)

/-- Global rows, and those of the read tenants. -/
def ReadTenants.sees : ReadTenants → Scope → Option Nat → Bool
  | all, _, _ => true
  | only ids, scope, tenantId => scope = .global || tenantId.any fun t => decide (t ∈ ids)

/-- A customer tenant's clears count, those of Default do not. -/
def clearTenantOf (tenantId : Option Nat) : Option Nat := tenantId.filter fun t => !isMasterTenant t

/-! ## Search and order -/

inductive IpSearch
  | exact (value : String)
  | cidr (value : String)
  | text (pattern : List Char)

def parseIpSearch (raw : String) : IpSearch :=
  match parseIpOrCidr raw with
  | some p =>
    if p.plen = p.family.bits then .exact p.address
    else .cidr (p.address ++ "/" ++ toString p.plen)
  | none => .text (raw.toList.take 64)

/-- `host(ip) ILIKE '%pattern%'`. -/
def ilikeHost (pattern : List Char) (ip : Inet) : Bool :=
  decide (pattern.map Char.toLower <:+: (Inet.addrText ip.host).map Char.toLower)

section search
variable (cast : String → Option Inet)

def ipSearchSql (ip : Inet) : IpSearch → Bool
  | .exact value => cast value = some ip
  | .cidr value => (cast value).any fun v => v.contains ip
  | .text pattern => ilikeHost pattern ip

def banSearchSql (ban : ListedBan) : IpSearch → Bool
  | .exact value => (cast value).any fun v => ban.target.networkSql.contains v
  | .cidr value => (cast value).any fun v => v.contains ban.target.networkSql
  | .text pattern => ilikeHost pattern ban.target.ip

end search

inductive SortOrder
  | asc
  | desc

inductive ReputationSortKey
  | lastSeen
  | failures
  | agents
  | country
  | firstSeen
  | bannedAt
deriving DecidableEq

/-- The order of PostgreSQL on `inet`: family, network part, address. -/
def inetKey (i : Inet) : Nat ×ₗ List Bool ×ₗ Nat :=
  toLex (match i.family with | .v4 => 4 | .v6 => 6,
    toLex ((List.range i.masklen).map fun k => i.addr.testBit (i.family.bits - 1 - k), i.addr))

/-- The rows in the order of a key. -/
def sortBy {ρ κ : Type} [LinearOrder κ] (key : ρ → κ) (rows : List ρ) : List ρ :=
  rows.insertionSort fun a b => key a ≤ key b

/-- A number, or a text. -/
abbrev SortValue := Int ⊕ₗ String

/-- `value ASC NULLS LAST`, then the tail. -/
def ascKey {κ : Type} (value : Option SortValue) (tail : κ) : WithTop SortValue ×ₗ κ := toLex (value, tail)

/-- `value DESC NULLS LAST`, then the tail. -/
def descKey {κ : Type} (value : Option SortValue) (tail : κ) : WithTop SortValueᵒᵈ ×ₗ κ :=
  toLex (value.map OrderDual.toDual, tail)

/-- `ORDER BY value order NULLS LAST, tail`. -/
def orderRows {ρ κ : Type} [LinearOrder κ] (order : SortOrder) (value : ρ → Option SortValue) (tail : ρ → κ)
    (rows : List ρ) : List ρ :=
  match order with
  | .asc => sortBy (fun a => ascKey (value a) (tail a)) rows
  | .desc => sortBy (fun a => descKey (value a) (tail a)) rows

section order
variable {ρ ι κ : Type} [LinearOrder κ]

theorem mem_sortBy {key : ρ → κ} {rows : List ρ} {a : ρ} : a ∈ sortBy key rows ↔ a ∈ rows :=
  List.mem_insertionSort _

theorem map_sortBy {key : ρ → κ} {key' : ι → κ} {f : ρ → ι} {rows : List ρ}
    (h : ∀ a ∈ rows, key a = key' (f a)) : (sortBy key rows).map f = sortBy key' (rows.map f) := by
  refine List.map_insertionSort _ _ f rows ?_
  intro a ha b hb
  rw [h a ha, h b hb]

theorem sortBy_perm {key : ρ → κ} (hkey : Function.Injective key) {rows rows' : List ρ} (h : rows.Perm rows') :
    sortBy key rows = sortBy key rows' := by
  have : IsTrans ρ fun a b => key a ≤ key b := ⟨fun _ _ _ => le_trans⟩
  have : Std.Total fun a b : ρ => key a ≤ key b := ⟨fun a b => le_total (key a) (key b)⟩
  exact List.Perm.eq_of_pairwise (fun _ _ _ _ hab hba => hkey (le_antisymm hab hba))
    (List.pairwise_insertionSort _ rows) (List.pairwise_insertionSort _ rows')
    (((List.perm_insertionSort _ rows).trans h).trans (List.perm_insertionSort _ rows').symm)

variable {order : SortOrder} {value : ρ → Option SortValue} {tail : ρ → κ} {rows : List ρ}

theorem mem_orderRows {a : ρ} : a ∈ orderRows order value tail rows ↔ a ∈ rows := by
  cases order with
  | asc => exact mem_sortBy
  | desc => exact mem_sortBy

theorem map_orderRows {f : ρ → ι} {value' : ι → Option SortValue} {tail' : ι → κ}
    (hvalue : ∀ a ∈ rows, value a = value' (f a)) (htail : ∀ a ∈ rows, tail a = tail' (f a)) :
    (orderRows order value tail rows).map f = orderRows order value' tail' (rows.map f) := by
  cases order with
  | asc =>
    refine map_sortBy ?_
    intro a ha
    rw [hvalue a ha, htail a ha]
  | desc =>
    refine map_sortBy ?_
    intro a ha
    rw [hvalue a ha, htail a ha]

theorem orderRows_perm (htail : Function.Injective tail) {rows' : List ρ} (h : rows.Perm rows') :
    orderRows order value tail rows = orderRows order value tail rows' := by
  cases order with
  | asc =>
    refine sortBy_perm ?_ h
    intro a b hab
    exact htail (Prod.mk.inj (toLex.injective hab)).2
  | desc =>
    refine sortBy_perm ?_ h
    intro a b hab
    exact htail (Prod.mk.inj (toLex.injective hab)).2

theorem orderRows_congr {value' : ρ → Option SortValue} (hvalue : ∀ a ∈ rows, value a = value' a) :
    orderRows order value tail rows = orderRows order value' tail rows := by
  have h : (orderRows order value tail rows).map id = orderRows order value' tail (rows.map id) :=
    map_orderRows hvalue fun _ _ => rfl
  rwa [List.map_id, List.map_id] at h

end order

theorem inetKey_injective : Function.Injective inetKey := by
  intro a b h
  obtain ⟨hfamily, h⟩ := Prod.mk.inj (toLex.injective h)
  obtain ⟨hbits, haddr⟩ := Prod.mk.inj (toLex.injective h)
  have hmasklen := congrArg List.length hbits
  rw [List.length_map, List.length_map, List.length_range, List.length_range] at hmasklen
  refine Inet.ext ?_ haddr hmasklen
  cases ha : a.family <;> cases hb : b.family <;> simp_all

/-! ## Bans, whitelist and clears of an address -/

inductive IpStatus
  | clean
  | suspicious
  | banned
  | whitelisted
deriving DecidableEq

/-- The active bans of an address that the read tenants see. -/
def activeBansAt (db : ReputationDb) (now : Int) (tenants : ReadTenants) (ip : Inet) : List ListedBan :=
  db.bans.filter fun b =>
    decide (b.target.ip = ip) && b.isActive && b.unexpired now && tenants.sees b.scope b.tenantId

/-- The lateral join on `ip_bans`: a global ban first, then the tenant's own, then the newest. -/
def activeBan (db : ReputationDb) (now : Int) (tenants : ReadTenants) (tenantId : Option Nat) (ip : Inet) :
    Option ListedBan :=
  (sortBy (fun b => OrderDual.toDual (toLex (decide (b.scope = .global),
      toLex (decide (b.tenantId = some (tenantId.getD 0)), toLex (b.bannedAt, b.id))) :
        Bool ×ₗ Bool ×ₗ Int ×ₗ Nat))
    (activeBansAt db now tenants ip)).head?

/-- The lateral join on `ip_whitelist`, of which only the existence is used. -/
def whitelistEntry (db : ReputationDb) (tenants : ReadTenants) (ip : Inet) : Option WhitelistRow :=
  db.whitelist.find? fun w => (Inet.ofNet w.ip).contains ip && tenants.sees w.scope w.tenantId

/-- The clears joined to a row of `ip_reputation`; none at all joins one row without. -/
def joinedClears (cast : String → Option Inet) (db : ReputationDb) (clearTenant : Option Nat) (ip : Inet) :
    List (Option TenantClear) :=
  let found := db.clears.rows.filter fun clr => clearTenant = some clr.tenantId && cast clr.ip = some ip
  if found = [] then [none] else found.map some

/-- `STATUS_CASE`. -/
def computedStatus (b : Option ListedBan) (w : Option WhitelistRow) (clr : Option TenantClear)
    (totalFailures : Nat) : IpStatus :=
  if b.isSome then .banned
  else if w.isSome then .whitelisted
  else if totalFailures > (clr.map (·.baselineFailures)).getD 0 then .suspicious
  else .clean

/-- Has the tenant overridden the ban. -/
def isExcludedBy (db : ReputationDb) (tenantId : Option Nat) (b : ListedBan) : Bool :=
  db.exclusions.any fun bex => bex.banId = b.id && tenantId = some bex.tenantId

def canSeeBanAuthor (b : BanRow) (tenantId : Option Nat) : Bool :=
  tenantId.any fun t => isMasterTenant t || b.tenantId = some t || b.originTenantId = some t

/-! ## Own totals -/

/-- The events of an address in the read scope. -/
def readEvents (db : ReputationDb) (tenants : ReadTenants) (ip : Inet) : List LogEvent :=
  db.events.filter fun e => decide (e.ip = ip) && tenants.reads e.tenantId

structure TenantAgg where
  failures : Nat
  successes : Nat
  agents : Nat
  services : List String
  usernames : List String
  firstSeen : Option Int
  lastSeen : Option Int
  lastDeviceId : Option Nat

/-- The aggregates over the events of one address. -/
def tenantEventAggregates (events : List LogEvent) : TenantAgg where
  failures := events.countP fun e => e.eventType = .authFailure
  successes := events.countP fun e => e.eventType = .authSuccess
  agents := (distinct (events.filterMap (·.deviceId))).length
  services := aggDistinct (events.map (·.service))
  usernames := (aggDistinct ((events.filterMap (·.username)).filter (· ≠ ""))).take 100
  firstSeen := (events.map (·.timestamp)).min?
  lastSeen := (events.map (·.timestamp)).max?
  lastDeviceId := (sortBy (fun e => OrderDual.toDual e.timestamp) events).head?.bind (·.deviceId)

structure IpReputation where
  ip : Inet
  totalFailures : Nat
  totalSuccesses : Nat
  affectedAgentsCount : Nat
  affectedServices : List String
  attemptedUsernames : List String
  firstSeen : Option Int
  lastSeen : Option Int
  lastEventDeviceId : Option Nat
  geo : Geo
  updatedAt : Int
  status : IpStatus
  clearedForTenant : Bool
  activeBanId : Option Nat
  activeBanScope : Option Scope
  activeBanIsOrigin : Bool
  activeBanExcluded : Bool
  banType : Option BanType
  bannedByUserId : Option Nat

/-- A row with its tenant attribution. -/
structure IpReputationListItem extends IpReputation where
  tenantId : Option Nat
  tenantName : Option String
  tenantIds : List Nat

def rowToReputation (row : ReputationRow) (status : IpStatus) (cleared : Bool) : IpReputation where
  ip := row.ip
  totalFailures := row.totalFailures
  totalSuccesses := row.totalSuccesses
  affectedAgentsCount := row.affectedAgentsCount
  affectedServices := row.affectedServices
  attemptedUsernames := row.attemptedUsernames
  firstSeen := row.firstSeen
  lastSeen := row.lastSeen
  lastEventDeviceId := row.lastEventDeviceId
  geo := row.geo
  updatedAt := row.updatedAt
  status := status
  clearedForTenant := cleared
  activeBanId := none
  activeBanScope := none
  activeBanIsOrigin := false
  activeBanExcluded := false
  banType := none
  bannedByUserId := none

/-- The columns of a row joined to its active ban. -/
def IpReputation.withBan (rep : IpReputation) (db : ReputationDb) (tenantId : Option Nat) (b : ListedBan) :
    IpReputation :=
  { rep with
    activeBanId := some b.id
    activeBanScope := some b.scope
    activeBanIsOrigin := tenantId.any fun t => b.originTenantId = some t
    activeBanExcluded := isExcludedBy db tenantId b }

/-- The row of a banned address without reputation, by `COALESCE`. -/
def emptyReputationRow (ip : Inet) (updatedAt : Int) : ReputationRow :=
  ⟨ip, 0, 0, [], 0, [], [], none, none, none, ⟨none, none, none⟩, updatedAt⟩

def applyTenantTotals (rep : IpReputation) (agg : TenantAgg) : IpReputation :=
  { rep with
    totalFailures := agg.failures
    totalSuccesses := agg.successes
    affectedAgentsCount := agg.agents
    affectedServices := agg.services
    attemptedUsernames := agg.usernames
    firstSeen := agg.firstSeen
    lastSeen := agg.lastSeen
    lastEventDeviceId := agg.lastDeviceId }

/-- The totals of the read tenants' own events; those of no event are zero. -/
def scopeTotals (db : ReputationDb) (tenants : ReadTenants) (rep : IpReputation) : IpReputation :=
  match tenants with
  | .all => rep
  | .only _ => applyTenantTotals rep (tenantEventAggregates (readEvents db tenants rep.ip))

/-- The tenants in the read scope with events from the address. -/
def eventTenants (db : ReputationDb) (tenants : ReadTenants) (ip : Inet) : List Nat :=
  aggDistinct ((readEvents db tenants ip).filterMap (·.tenantId))

def attributed (db : ReputationDb) (tenants : ReadTenants) (owner : List Nat → Option Nat) (rep : IpReputation) :
    IpReputationListItem :=
  let ids := eventTenants db tenants rep.ip
  { toIpReputation := rep
    tenantId := owner ids
    tenantName := (owner ids).bind db.tenantName
    tenantIds := ids }

/-! ## The list -/

structure ListFilters where
  tenantId : Option Nat
  isAdmin : Bool
  tenantIds : List Nat
  status : Option IpStatus
  search : Option String
  limit : Option Int
  offset : Option Int
  sortBy : Option ReputationSortKey
  sortOrder : Option SortOrder

structure ListResult where
  data : List IpReputationListItem
  total : Nat

/-- `reputationOrderBy`: what a row is sorted on, with its ban on the banned list. -/
def orderValue (db : ReputationDb) (tenants : ReadTenants) (key : ReputationSortKey) (ip : Inet)
    (row : Option ReputationRow) (ban : Option ListedBan) : Option SortValue :=
  let own := match tenants with
    | .only (_ :: _) => some (tenantEventAggregates (readEvents db tenants ip))
    | _ => none
  let num (n : Int) : SortValue := toLex (Sum.inl n)
  match if key = .bannedAt && ban.isNone then .lastSeen else key with
  | .failures => some (num ((own.map (·.failures)).getD ((row.map (·.totalFailures)).getD 0)))
  | .agents => some (num ((own.map (·.agents)).getD ((row.map (·.affectedAgentsCount)).getD 0)))
  | .country => (row.bind (·.geo.countryCode)).map fun t => toLex (Sum.inr t)
  | .firstSeen => ((own.map (·.firstSeen)).getD (row.bind (·.firstSeen))).map num
  | .bannedAt => (ban.map (·.bannedAt)).map num
  | .lastSeen => ((own.map (·.lastSeen)).getD (row.bind (·.lastSeen))).map num

/-- The pages of a list. -/
def ListFilters.page (f : ListFilters) (rows : List IpReputationListItem) : ListResult where
  data := (rows.drop (max (f.offset.getD 0) 0).toNat).take (min (max (f.limit.getD 50) 1) 500).toNat
  total := rows.length

section list
variable (cast : String → Option Inet) (db : ReputationDb) (now : Int)

/-- A ban of the banned list, left joined to `ip_reputation`. -/
def bannedItem (tenants : ReadTenants) (tenantId : Option Nat) (b : ListedBan) : IpReputationListItem :=
  let row := (db.reputation.find b.target.ip).getD (emptyReputationRow b.target.ip b.bannedAt)
  attributed db tenants (fun _ => b.tenantId) (scopeTotals db tenants
    { (rowToReputation row .banned false).withBan db tenantId b with
      banType := some b.banType
      bannedByUserId := if canSeeBanAuthor b.toBanRow tenantId then b.bannedByUserId else none })

/-- The banned list, ordered, before paging. -/
def bannedItems (f : ListFilters) : List IpReputationListItem :=
  let tenants := readTenantsFor f.tenantId f.tenantIds
  let rows := db.bans.filter fun b =>
    b.isActive && b.unexpired now && tenants.sees b.scope b.tenantId &&
      (f.search.filter (· ≠ "")).all fun raw => banSearchSql cast b (parseIpSearch raw)
  (orderRows (f.sortOrder.getD .desc)
      (fun b => orderValue db tenants (f.sortBy.getD .bannedAt) b.target.ip (db.reputation.find b.target.ip) (some b))
      (fun b => (toLex (inetKey b.target.ip, b.id) : (Nat ×ₗ List Bool ×ₗ Nat) ×ₗ Nat)) rows).map
    (bannedItem db tenants f.tenantId)

/-- A row of `ip_reputation` joined to its active ban, its whitelist entry and a clear. -/
def reputationItem (tenants : ReadTenants) (tenantId : Option Nat) (row : ReputationRow) (clr : Option TenantClear) :
    IpReputationListItem :=
  let b := activeBan db now tenants tenantId row.ip
  let w := whitelistEntry db tenants row.ip
  let rep := rowToReputation row (computedStatus b w clr row.totalFailures) clr.isSome
  attributed db tenants (fun ids => if ids.length = 1 then ids.head? else none)
    (scopeTotals db tenants (b.elim rep (rep.withBan db tenantId)))

/-- The list's rows of one row of `ip_reputation`, one for each of its clears. -/
def reputationItems (f : ListFilters) (row : ReputationRow) : List IpReputationListItem :=
  ((joinedClears cast db (clearTenantOf f.tenantId) row.ip).map
      (reputationItem db now (readTenantsFor f.tenantId f.tenantIds) f.tenantId row)).filter fun item =>
    f.status.all fun status => item.status = status

/-- A restricted caller only lists addresses with events in its read scope. -/
def hasTenantEvents (tenants : ReadTenants) (ip : Inet) : Bool :=
  match tenants with
  | .all => true
  | .only _ => readEvents db tenants ip ≠ []

/-- The rows of `ip_reputation` that are listed, ordered. A row precedes another where its address does, whatever
they are joined to. -/
def reputationRows (f : ListFilters) : List ReputationRow :=
  let tenants := readTenantsFor f.tenantId f.tenantIds
  orderRows (f.sortOrder.getD .desc)
    (fun r => orderValue db tenants (f.sortBy.getD .lastSeen) r.ip (some r) none) (fun r => inetKey r.ip)
    (db.reputation.rows.filter fun r =>
      hasTenantEvents db tenants r.ip &&
        (f.search.filter (· ≠ "")).all fun raw => ipSearchSql cast r.ip (parseIpSearch raw))

def list (f : ListFilters) : ListResult :=
  f.page (if f.status = some .banned then bannedItems cast db now f
    else (reputationRows cast db f).flatMap (reputationItems cast db now f))

/-! ## One address -/

/-- `statusFor` of the address `ip` of a text. -/
def statusFor (text : String) (ip : Inet) (row : Option ReputationRow) (tenants : ReadTenants)
    (clearTenant : Option Nat) : IpStatus × Bool :=
  let total := (row.map (·.totalFailures)).getD 0
  if (activeBansAt db now tenants ip).isEmpty = false then (.banned, false)
  else if (whitelistEntry db tenants ip).isSome then (.whitelisted, false)
  else if total ≤ 0 then (.clean, false)
  else match clearTenant with
    | none => (.suspicious, false)
    | some t =>
      match db.clears.find (text, t) with
      | none => (.suspicious, false)
      | some clr => (if total > clr.baselineFailures then .suspicious else .clean, true)

/-- The status that `getByIp` and `getIpDetail` ask for; the query fails on a text that is no address. -/
def detailStatus (tenantId : Option Nat) (text : String) : Option (IpStatus × Bool) :=
  (cast text).map fun ip =>
    statusFor db now text ip (db.reputation.find ip) (readTenantsFor tenantId []) (clearTenantOf tenantId)

end list

end Obliguard.Server

import Obliguard.Server.Requests

/-!
# Events and the BanEngine

The intake of agent events (`normalizeEventIp`, `clampEventTimestamp` and the insert into
`ip_events` of `server/src/services/agent.service.ts`), the duration policy of
`banPolicy.service.ts`, and a cycle of the BanEngine (`evaluateThresholds` and `createAutoBans` of
`ban.service.ts`). Which devices are evaluated, with which templates, is an input of a cycle.

`mem_cycle` is the inversion of a cycle: a new row is the ban of a candidate, and `mem_candidates`
says which failures a candidate was counted from.
-/

namespace Obliguard.Server

open Bans IpValidation Text AddrText

/-! ## Events -/

/-- An event as an agent sends it; an `ip` or a `timestamp` of `none` is a value of the wrong kind. The raw line is
kept as bytes. -/
structure AgentIpEvent where
  ip : Option String
  username : Option String
  service : String
  eventType : String
  timestamp : Option Int
  rawLog : Option (List UInt8)

/-- The characters of a zone that Node accepts after an IPv6 address. -/
def isZoneChar (c : Char) : Bool := c.isAlphanum || c == '-' || c == '.' || c == ':'

/-- Node's `net.isIP`, with the zone that may follow an IPv6 address. -/
def isIPZoned (s : List Char) : Option IpFamily :=
  match isIP s with
  | some f => some f
  | none =>
    match s.dropWhile (· ≠ '%') with
    | _ :: z :: zone =>
      if (z :: zone).all isZoneChar && (parseV6 (s.takeWhile (· ≠ '%'))).isSome then some .v6 else none
    | _ => none

/-- `[addr]` without its brackets. -/
def stripBrackets (s : List Char) : List Char :=
  if s.head? = some '[' ∧ s.getLast? = some ']' then (s.drop 1).dropLast else s

/-- The dotted part of `/^::ffff:([0-9.]+)$/i`, any other text as it is. -/
def foldDotted (s : List Char) : List Char :=
  let rest := s.drop 7
  if (s.take 7).map Char.toLower = "::ffff:".toList ∧ rest ≠ [] ∧
      rest.all (fun c => c.isDigit || c == '.') then rest
  else s

/-- `normalizeEventIp`. An IPv4-mapped address is folded in its dotted spelling only. -/
def normalizeEventIp (raw : Option String) : Option (List Char) :=
  raw.bind fun raw =>
    let ip := foldDotted (stripBrackets (jsTrim raw.toList))
    match isIPZoned ip with
    | some .v4 => some ip
    | some .v6 => some (ip.map Char.toLower)
    | none => none

/-- `EVENT_TS_MAX_FUTURE_MS`. -/
def eventTsMaxFutureMs : Int := 5 * 60000

/-- `EVENT_TS_MAX_AGE_MS`. -/
def eventTsMaxAgeMs : Int := 24 * 60 * 60000

/-- `clampEventTimestamp`. -/
def clampEventTimestamp (raw : Option Int) (now : Int) : Int :=
  match raw with
  | none => now
  | some t =>
    if t > now + eventTsMaxFutureMs then now
    else if t < now - eventTsMaxAgeMs then now - eventTsMaxAgeMs
    else t

/-- A flush of events, with the services whose template is disabled or in track mode. -/
structure EventBatch where
  deviceId : Nat
  tenantId : Nat
  disabledServices : List String
  trackOnlyServices : List String
  events : List AgentIpEvent

/-- A column `varchar(n)` takes the text: PostgreSQL refuses a NUL, and what is longer but for blanks at the end. -/
def fitsVarchar (n : Nat) (s : String) : Bool :=
  !s.toList.contains '\x00' && (s.toList.drop n).all (· == ' ')

/-- What it stores: the blanks behind the `n`th character are cut off. -/
def varchar (n : Nat) (s : String) : String := String.ofList (s.toList.take n)

/-- The texts of the event fit the columns `username varchar(255)`, `service varchar(50)`, `event_type varchar(20)`
and `raw_log text`. -/
def AgentIpEvent.fits (ev : AgentIpEvent) : Bool :=
  ev.username.all (fitsVarchar 255) && fitsVarchar 50 ev.service && fitsVarchar 20 ev.eventType &&
    ev.rawLog.all fun raw => !raw.contains 0

def AgentIpEvent.row (ev : AgentIpEvent) (b : EventBatch) (now : Int) (a : Addr) : IpEvent where
  deviceId := b.deviceId
  tenantId := b.tenantId
  ip := Inet.ofAddr a
  username := ev.username.map (varchar 255)
  service := varchar 50 ev.service
  eventType := if varchar 20 ev.eventType = "auth_failure" then .authFailure else .other
  trackOnly := b.trackOnlyServices.contains ev.service
  timestamp := clampEventTimestamp ev.timestamp now
  rawLog := ev.rawLog

/-- The row of an event, if PostgreSQL takes it: an address with a zone is refused, and so is a text that does not fit
its column. -/
def eventRow (b : EventBatch) (now : Int) (ip : List Char) (ev : AgentIpEvent) : Option IpEvent :=
  if ev.fits then (parseAddr ip).map (ev.row b now) else none

theorem eventRow_eq_some {b : EventBatch} {now : Int} {ip : List Char} {ev : AgentIpEvent} {r : IpEvent} :
    eventRow b now ip ev = some r ↔ ev.fits = true ∧ ∃ a, parseAddr ip = some a ∧ ev.row b now a = r := by
  rw [eventRow, Option.ite_none_right_eq_some, Option.map_eq_some_iff]

/-- The events of a flush that are stored, with their normalized addresses. -/
def incomingEvents (b : EventBatch) : List (List Char × AgentIpEvent) :=
  (b.events.filterMap fun ev => (normalizeEventIp ev.ip).map fun ip => (ip, ev)).filter
    fun p => !b.disabledServices.contains p.2.service

/-- The insert of a flush: one row that is refused fails it as a whole. -/
def ingest (b : EventBatch) (now : Int) (db : Db) : Db :=
  match (incomingEvents b).mapM fun p => eventRow b now p.1 p.2 with
  | none => db
  | some rows => { db with events := db.events ++ rows }

section mapM
variable {α β : Type} {f : α → Option β} {as : List α} {bs : List β} {b : β}

theorem mapM_eq_some : as.mapM f = some bs ↔ as.map f = bs.map some := by
  induction as generalizing bs with
  | nil => cases bs <;> simp
  | cons a as ih =>
    rw [List.mapM_cons, List.map_cons]
    cases bs with
    | nil =>
      cases f a with
      | none => simp
      | some c => cases as.mapM f <;> simp
    | cons b bs =>
      rw [List.map_cons, List.cons.injEq, ← ih]
      cases f a with
      | none => simp
      | some c => cases as.mapM f <;> simp

theorem mem_of_mapM (h : as.mapM f = some bs) (hb : b ∈ bs) : ∃ a ∈ as, f a = some b := by
  rw [mapM_eq_some] at h
  exact List.mem_map.mp (h ▸ List.mem_map_of_mem hb)

theorem mem_mapM {a : α} (h : as.mapM f = some bs) (ha : a ∈ as) (hb : f a = some b) : b ∈ bs := by
  rw [mapM_eq_some] at h
  obtain ⟨b', hb', heq⟩ := List.mem_map.mp (h ▸ List.mem_map_of_mem (f := f) ha)
  rw [hb, Option.some.injEq] at heq
  rwa [← heq]

theorem mapM_isSome_iff : (as.mapM f).isSome = true ↔ ∀ a ∈ as, (f a).isSome = true := by
  induction as with
  | nil => simp
  | cons a as ih =>
    rw [List.mapM_cons, List.forall_mem_cons, ← ih]
    cases f a with
    | none => simp
    | some b =>
      cases as.mapM f with
      | none => simp
      | some bs => simp

end mapM

theorem mem_ingest {b : EventBatch} {now : Int} {db : Db} {ev : IpEvent}
    (h : ev ∈ (ingest b now db).events) :
    ev ∈ db.events ∨ ∃ p ∈ incomingEvents b, eventRow b now p.1 p.2 = some ev := by
  unfold ingest at h
  split at h
  · exact Or.inl h
  · rename_i rows hrows
    rcases List.mem_append.mp h with h | h
    · exact Or.inl h
    · exact Or.inr (mem_of_mapM hrows h)

/-! ## Duration of auto-bans -/

structure BanPolicyStep where
  priorBans : Nat
  ttlSeconds : Option Nat

structure BanPolicy where
  autoBanTtlSeconds : Option Nat
  ladder : List BanPolicyStep

/-- `ttlFor`: the last step of the ladder that the earlier bans reach. -/
def BanPolicy.ttlFor (p : BanPolicy) (priorBans : Nat) : Option Nat :=
  p.ladder.foldl (fun ttl s => if s.priorBans ≤ priorBans then s.ttlSeconds else ttl) p.autoBanTtlSeconds

/-- The earlier bans of a single address, of any scope, type or state; counted only for a ladder. -/
def priorBans (p : BanPolicy) (bans : Table BanRow.id) (n : Net) : Nat :=
  if p.ladder = [] then 0
  else (bans.rows.filter fun b => b.target.ip == Inet.ofNet n &&
    b.target.effectivePrefix == b.target.ip.masklen).length

/-! ## Thresholds -/

/-- An enabled template in ban mode. -/
structure Template where
  serviceType : String
  windowSeconds : Nat
  threshold : Nat
deriving DecidableEq

/-- What a cycle reads beside the tables: the evaluated devices with their templates, the protected
addresses and the duration policy. -/
structure EngineCycle where
  plan : List (Nat × List Template)
  env : SafetyEnv
  policy : BanPolicy

/-- The latest global deactivation of an address that is not a withdrawal by its source. The rows
are those whose column `ip` equals the address. -/
def watermark (bans : Table BanRow.id) (ip : Inet) : Option Int :=
  ((bans.rows.filter fun lb => lb.target.ip == ip && lb.scope == .global &&
    lb.liftReason != some .remoteSync).filterMap (·.liftedAt)).max?

/-- The failures that a template counts for a device. -/
def isCounted (bans : Table BanRow.id) (now : Int) (deviceId : Nat) (cfg : Template) (ev : IpEvent) :
    Bool :=
  ev.deviceId == deviceId && ev.service == cfg.serviceType && ev.eventType == .authFailure &&
    !ev.trackOnly && decide (now - cfg.windowSeconds * 1000 ≤ ev.timestamp) &&
    (watermark bans ev.ip).all fun w => w < ev.timestamp

/-- An address over the threshold, as the driver returns it. -/
structure AutoBanCandidate where
  ip : String
  tenantId : Nat
  service : String
  failureCount : Nat

/-- The order of single addresses. -/
def inetLe (a b : Inet) : Bool :=
  match a.family, b.family with
  | .v4, .v6 => true
  | .v6, .v4 => false
  | _, _ => decide (a.addr ≤ b.addr)

/-- The grouped aggregate of a template for one device. -/
def hits (db : Db) (now : Int) (deviceId : Nat) (cfg : Template) : List (Inet × Nat × Nat) :=
  let counted := db.events.filter (isCounted db.bans now deviceId cfg)
  let groups := (distinct (counted.map fun ev => (ev.ip, ev.tenantId))).map fun k =>
    (k.1, k.2, (counted.filter fun ev => ev.ip == k.1 && ev.tenantId == k.2).length)
  (groups.filter fun g => decide (cfg.threshold ≤ g.2.2)).mergeSort fun a b => inetLe a.1 b.1

/-- `evaluateThresholds`: the candidates in evaluation order, device then template. -/
def autoBanCandidates (db : Db) (now : Int) (plan : List (Nat × List Template)) :
    List AutoBanCandidate :=
  plan.flatMap fun p => p.2.flatMap fun cfg => (hits db now p.1 cfg).map fun h =>
    ⟨String.ofList h.1.text, h.2.1, cfg.serviceType, h.2.2⟩

/-! ## Auto-bans -/

/-- `AUTO_INSERT_CHUNK`. -/
def autoInsertChunk : Nat := 1000

/-- The first element of each key. -/
def firstBy {α κ : Type} [DecidableEq κ] (key : α → κ) (l : List α) : List α :=
  l.foldl (fun out a => if out.any fun b => key b == key a then out else out ++ [a]) []

/-- The candidates that pass the ban-safety check, the first one of each address. -/
def byAddress (env : SafetyEnv) (candidates : List AutoBanCandidate) :
    List (AutoBanCandidate × BanTarget) :=
  firstBy (fun p => p.2.address) ((firstBy (·.ip) candidates).filterMap fun c =>
    (checkBanTarget env c.ip false).toOption.map fun t => (c, t))

/-- The active global rows that cover an address. -/
def covering (bans : Table BanRow.id) (n : Net) : List BanRow :=
  bans.rows.filter fun b => b.scope == .global && b.isActive &&
    b.target.networkSql.contains (Inet.ofNet n)

/-- The row of an auto-ban. -/
def autoRow (c : AutoBanCandidate) (t : BanTarget) (expiresAt : Option Int) (id : Nat) : BanRow where
  id := id
  target := Stored.ofNet t.net
  reason :=
    let count := c.failureCount
    let service := c.service
    some s!"Auto-ban: {count} {service} auth failures"
  banType := .auto
  scope := .global
  scopeId := none
  tenantId := none
  originTenantId := some c.tenantId
  originApp := none
  originRef := none
  bannedByUserId := none
  expiresAt := expiresAt
  isActive := true
  liftedAt := none
  liftReason := none

theorem autoRow_id (c : AutoBanCandidate) (t : BanTarget) (expiresAt : Option Int) (id : Nat) :
    (autoRow c t expiresAt id).id = id := rfl

/-- One row of an `INSERT ... ON CONFLICT DO NOTHING`. -/
def insertAuto (expiry : Net → Option Int) (bans : Table BanRow.id)
    (p : AutoBanCandidate × BanTarget) : Table BanRow.id :=
  if uniqueConflict bans (autoRow p.1 p.2 (expiry p.2.net) bans.seq) then bans
  else bans.insert (autoRow p.1 p.2 (expiry p.2.net)) (autoRow_id p.1 p.2 (expiry p.2.net))

/-- The candidates that no live global row covers. -/
def uncovered (env : SafetyEnv) (now : Int) (candidates : List AutoBanCandidate)
    (bans : Table BanRow.id) : List (AutoBanCandidate × BanTarget) :=
  (byAddress env candidates).filter fun p => !(covering bans p.2.net).any fun b => b.unexpired now

/-- `expires_at` of an auto-ban. -/
def autoExpiry (policy : BanPolicy) (now : Int) (bans : Table BanRow.id) (n : Net) : Option Int :=
  (policy.ttlFor (priorBans policy bans n)).map fun ttl : Nat => now + (ttl : Int) * 1000

/-- The inserts of a cycle. -/
def insertAutoBans (expiry : Net → Option Int) (toBan : List (AutoBanCandidate × BanTarget)) (db : Db) :
    Db :=
  { db with
    bans := (slices autoInsertChunk toBan).foldl (fun bans c => c.foldl (insertAuto expiry) bans)
      db.bans }

/-- `createAutoBans`: an address that a live global row covers is skipped, expired rows in its way
are deactivated, a globally whitelisted address is left alone. -/
def createAutoBans (env : SafetyEnv) (policy : BanPolicy) (now : Int)
    (candidates : List AutoBanCandidate) (db : Db) : Db :=
  let free := uncovered env now candidates db.bans
  let db := (deactivateBans db now
    (free.flatMap fun p => (covering db.bans p.2.net).map (·.id)) .expiry).2
  insertAutoBans (autoExpiry policy now db.bans)
    (free.filter fun p => !isWhitelisted db p.2.net {}) db

/-- One cycle of the engine. -/
def EngineCycle.run (c : EngineCycle) (now : Int) (db : Db) : Db :=
  createAutoBans c.env c.policy now (autoBanCandidates db now c.plan) db

/-! ## What a cycle does -/

theorem mem_firstBy {α κ : Type} [DecidableEq κ] {key : α → κ} {l : List α} {a : α}
    (h : a ∈ firstBy key l) : a ∈ l := by
  have hfold : ∀ (l out : List α), a ∈ l.foldl
      (fun out a => if out.any fun b => key b == key a then out else out ++ [a]) out →
        a ∈ out ∨ a ∈ l := by
    intro l
    induction l with
    | nil => exact fun out h => Or.inl h
    | cons b l ih =>
      intro out h
      rw [List.foldl_cons] at h
      rcases ih _ h with h | h
      · split at h
        · exact Or.inl h
        · rcases List.mem_append.mp h with h | h
          · exact Or.inl h
          · rw [List.mem_singleton] at h
            exact Or.inr (by simp [h])
      · exact Or.inr (by simp [h])
  rcases hfold l [] h with h | h
  · contradiction
  · exact h

theorem mem_byAddress {env : SafetyEnv} {cs : List AutoBanCandidate} {p : AutoBanCandidate × BanTarget}
    (h : p ∈ byAddress env cs) : p.1 ∈ cs ∧ checkBanTarget env p.1.ip false = .ok p.2 := by
  obtain ⟨c, hc, hp⟩ := List.mem_filterMap.mp (mem_firstBy h)
  obtain ⟨t, ht, rfl⟩ := Option.map_eq_some_iff.mp hp
  refine ⟨mem_firstBy hc, ?_⟩
  cases hcheck : checkBanTarget env c.ip false with
  | error e =>
    rw [hcheck] at ht
    contradiction
  | ok t' =>
    rw [hcheck] at ht
    exact congrArg Except.ok (Option.some.inj ht)

section inserts
variable {expiry : Net → Option Int} {bans : Table BanRow.id} {b : BanRow}

theorem mem_foldl_insertAuto {ps : List (AutoBanCandidate × BanTarget)}
    (h : b ∈ (ps.foldl (insertAuto expiry) bans).rows) :
    b ∈ bans.rows ∨ ∃ p ∈ ps, ∃ id, b = autoRow p.1 p.2 (expiry p.2.net) id := by
  induction ps generalizing bans with
  | nil => exact Or.inl h
  | cons p ps ih =>
    rcases ih h with h | ⟨q, hq, h⟩
    · unfold insertAuto at h
      split at h
      · exact Or.inl h
      · rcases Table.mem_insert.mp h with h | rfl
        · exact Or.inl h
        · exact Or.inr ⟨p, by simp, _, rfl⟩
    · exact Or.inr ⟨q, by simp [hq], h⟩

theorem foldl_insertAuto_mono {ps : List (AutoBanCandidate × BanTarget)} (h : b ∈ bans.rows) :
    b ∈ (ps.foldl (insertAuto expiry) bans).rows := by
  induction ps generalizing bans with
  | nil => exact h
  | cons p ps ih =>
    apply ih
    unfold insertAuto
    split
    · exact h
    · exact Table.mem_insert.mpr (Or.inl h)

theorem mem_foldl_insertAutoChunk {cs : List (List (AutoBanCandidate × BanTarget))}
    (h : b ∈ (cs.foldl (fun bans c => c.foldl (insertAuto expiry) bans) bans).rows) :
    b ∈ bans.rows ∨ ∃ c ∈ cs, ∃ p ∈ c, ∃ id, b = autoRow p.1 p.2 (expiry p.2.net) id := by
  induction cs generalizing bans with
  | nil => exact Or.inl h
  | cons c cs ih =>
    rcases ih h with h | ⟨d, hd, h⟩
    · rcases mem_foldl_insertAuto h with h | ⟨p, hp, h⟩
      · exact Or.inl h
      · exact Or.inr ⟨c, by simp, p, hp, h⟩
    · exact Or.inr ⟨d, by simp [hd], h⟩

theorem foldl_insertAutoChunk_mono {cs : List (List (AutoBanCandidate × BanTarget))}
    (h : b ∈ bans.rows) : b ∈ (cs.foldl (fun bans c => c.foldl (insertAuto expiry) bans) bans).rows := by
  induction cs generalizing bans with
  | nil => exact h
  | cons c cs ih => exact ih (foldl_insertAuto_mono h)

end inserts

section cycle
variable {c : EngineCycle} {now : Int} {db : Db} {r : BanRow}

theorem cycle_frame : RequestFrame db (c.run now db) := by
  obtain ⟨ids, expiry, ps, hrun⟩ : ∃ ids expiry ps, c.run now db =
      insertAutoBans expiry ps (deactivateBans db now ids .expiry).2 := ⟨_, _, _, rfl⟩
  rw [hrun]
  have hexpired : RequestFrame db (deactivateBans db now ids .expiry).2 :=
    frame_deactivateBans now ids .expiry
  refine hexpired.trans ?_
  exact RequestFrame.of_bans fun b hb _ => foldl_insertAutoChunk_mono hb

/-- A new row of a cycle is the ban of one of its candidates. -/
theorem mem_cycle (hr : r ∈ (c.run now db).bans.rows) (hnew : db.bans.seq ≤ r.id) :
    ∃ cand ∈ autoBanCandidates db now c.plan, netOfText cand.ip = some r.net ∧ r.net.IsHost := by
  unfold EngineCycle.run createAutoBans at hr
  dsimp only at hr
  rcases mem_foldl_insertAutoChunk hr with hr | ⟨ps, hps, p, hp, id, rfl⟩
  · have hlt := (Table.bounds _ r hr).2
    rw [deactivateBans_bans] at hlt
    exact absurd hlt (Nat.not_lt.mpr hnew)
  · have hmem := (mem_slices (by decide)).mp ⟨ps, hps, hp⟩
    have hfree := List.mem_of_mem_filter hmem
    obtain ⟨hcand, hcheck⟩ := mem_byAddress (List.mem_of_mem_filter hfree)
    obtain ⟨hnet, -, -, hhost⟩ := checkBanTarget_net hcheck
    have hrow : ∀ e, (autoRow p.1 p.2 e id).net = p.2.net := by
      intro e
      show (Stored.ofNet p.2.net).networkSql.net = p.2.net
      rw [Stored.networkSql_ofNet, Inet.net_ofNet]
    rw [hrow]
    exact ⟨p.1, hcand, hnet, hhost rfl⟩

/-- A candidate was counted, for one device and one template, from failures stored under one
address. -/
theorem mem_candidates {plan : List (Nat × List Template)} {cand : AutoBanCandidate}
    (h : cand ∈ autoBanCandidates db now plan) : ∃ p ∈ plan, ∃ cfg ∈ p.2, ∃ ip : Inet,
      cand.ip = String.ofList ip.text ∧ cfg.threshold ≤
        (db.events.filter fun ev => isCounted db.bans now p.1 cfg ev && ev.ip == ip).length := by
  simp only [autoBanCandidates, List.mem_flatMap, List.mem_map] at h
  obtain ⟨p, hp, cfg, hcfg, g, hg, rfl⟩ := h
  refine ⟨p, hp, cfg, hcfg, g.1, rfl, ?_⟩
  simp only [hits, List.mem_mergeSort, List.mem_filter, List.mem_map, decide_eq_true_eq] at hg
  obtain ⟨⟨k, -, rfl⟩, hcount⟩ := hg
  refine hcount.trans ?_
  rw [List.filter_filter]
  apply (List.monotone_filter_right db.events ?_).length_le
  intro ev hev
  simp only [Bool.and_eq_true] at hev ⊢
  exact ⟨hev.2, hev.1.1⟩

/-- A counted failure is later than every Lift of a global row with its address in `ip`. -/
theorem lt_of_isCounted {deviceId : Nat} {cfg : Template} {ev : IpEvent} {lb : BanRow} {at' : Int}
    (h : isCounted db.bans now deviceId cfg ev = true) (hlb : lb ∈ db.bans.rows)
    (hip : lb.target.ip = ev.ip) (hs : lb.scope = .global) (hat : lb.liftedAt = some at')
    (hr : lb.liftReason ≠ some .remoteSync) : at' < ev.timestamp := by
  have hmem : at' ∈ (db.bans.rows.filter fun lb => lb.target.ip == ev.ip && lb.scope == .global &&
      lb.liftReason != some .remoteSync).filterMap (·.liftedAt) :=
    List.mem_filterMap.mpr ⟨lb, List.mem_filter.mpr ⟨hlb, by simp [hip, hs, hr]⟩, hat⟩
  obtain ⟨w, hw⟩ := Option.isSome_iff_exists.mp (List.isSome_max?_of_mem hmem)
  have hle : at' ≤ w := (List.max?_eq_some_iff.mp hw).2 at' hmem
  simp only [isCounted, Bool.and_eq_true, watermark, hw, Option.all_some, decide_eq_true_eq] at h
  exact lt_of_le_of_lt hle h.2

end cycle

end Obliguard.Server

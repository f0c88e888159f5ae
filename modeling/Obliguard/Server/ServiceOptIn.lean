import Mathlib.Data.String.Basic
import Obliguard.Server.ServiceTemplates

/-!
# Service opt-in, from the templates to the count

The same templates are read by the config frame, by the gates of both ingestion paths and by the
BanEngine. `OptedIn` is what an enabled template in ban mode is for: its service is watched, and a
failure that the agent reports of it is stored and counted.

The readings agree only in part. The frame has one config for each key, so one disabled template
silences the enabled ones of its key; the events of a custom log carry the key of the frame while
the BanEngine counts the type `custom`; an address like `::ffff:5` does not pass the intake; and a
text that is too long for its column loses the flush.
`optedIn_iff` says that nothing else goes wrong, and `ungated_not_stored` is the converse gate.
-/

namespace Obliguard.Server

open Agent (Regexp Emits)

/-! ## The property -/

/-- What an agent sends in a flush: events that it emitted, under any configs. -/
structure AgentFlush (re : Regexp) (defaultLogPath : String → String) where
  deviceId : Nat
  tenantId : Nat
  events : List Agent.AgentIpEvent
  emitted : ∀ e ∈ events, ∃ configs svcKey, Emits re defaultLogPath configs svcKey e

/-- The flush as the server reads it. -/
def AgentFlush.received {re : Regexp} {defaultLogPath : String → String}
    (f : AgentFlush re defaultLogPath) (parseDate : String → Option Int) : Flush where
  deviceId := f.deviceId
  tenantId := f.tenantId
  events := f.events.map (receivedEvent parseDate)

/-- Some enabled template in track mode covers the service of `t`. -/
def Tracked (ts : List ResolvedServiceConfig) (t : ResolvedServiceConfig) : Prop :=
  ∃ u ∈ ts, u.enabled = true ∧ u.mode = .track ∧ u.configKey = t.configKey

instance (ts : List ResolvedServiceConfig) (t : ResolvedServiceConfig) : Decidable (Tracked ts t) :=
  inferInstanceAs (Decidable (∃ u ∈ ts, _))

/-- The aggregate of `t` counts a row: in its window, and after the last deactivation of its address. -/
def CountedBy (resolved : List ResolvedServiceConfig) (t : ResolvedServiceConfig) (r : IpEvent) :
    Prop :=
  t.template ∈ banTemplates resolved ∧ ∀ bans now, isCounted bans now r.deviceId t.template r =
    (decide (now - t.windowSeconds * 1000 ≤ r.timestamp) &&
      (watermark bans r.ip).all fun w => w < r.timestamp)

/-- A failure is kept: its row is among those that the flush adds, and unless the service is tracked
it is not set aside and is counted. -/
def Kept (resolved : List ResolvedServiceConfig) (t : ResolvedServiceConfig) (f : Flush)
    (now : Int) (ev : AgentIpEvent) (db db' : Db) : Prop :=
  ∃ rows ip r, db'.events = db.events ++ rows ∧ (ip, ev) ∈ incomingEvents (gated resolved f) ∧
    eventRow (gated resolved f) now ip ev = some r ∧ r ∈ rows ∧
    (Tracked resolved t ∨ r.trackOnly = false ∧ CountedBy resolved t r)

section optin
variable (re : Regexp) (defaultLogPath : String → String) (coll : Collation)
  (parseDate : String → Option Int)

/-- What an enabled template promises for an event of a flush. -/
structure OptedIn (ts : List ResolvedServiceConfig) (t : ResolvedServiceConfig)
    (f : AgentFlush re defaultLogPath) (e : Agent.AgentIpEvent) (now : Int) (db : Db) : Prop where
  enabled : Agent.isServiceEnabled (serviceConfigsMap (sortResolved coll ts)) t.configKey = true
  pushed : Emits re defaultLogPath (serviceConfigsMap (sortResolved coll ts)) t.configKey e →
    e.eventType = "auth_failure" →
      Kept (sortResolved coll ts) t (f.received parseDate) now (receivedEvent parseDate e) db
        (handlePushEvents (sortResolved coll ts) (f.received parseDate) now db)
  flushed : Emits re defaultLogPath (serviceConfigsMap (sortResolved coll ts)) t.configKey e →
    e.eventType = "auth_failure" →
      Kept (sortResolved coll ts) t (f.received parseDate) now (receivedEvent parseDate e) db
        (processEventsFlush true (sortResolved coll ts) (f.received parseDate) now db)

end optin

/-! ## Where the readings agree -/

section agree
variable {resolved : List ResolvedServiceConfig} {t : ResolvedServiceConfig} {svc : String}

theorem mem_trackOnlyServices : svc ∈ trackOnlyServices resolved ↔
    ∃ u ∈ resolved, u.enabled = true ∧ u.mode = .track ∧ u.serviceType = svc := by
  simp [trackOnlyServices, and_assoc]

theorem mem_disabledServices : svc ∈ disabledServices resolved ↔
    ∃ u ∈ resolved, u.enabled = false ∧ u.serviceType = svc := by
  simp [disabledServices, and_assoc]

theorem configKey_of_serviceType {u : ResolvedServiceConfig} (h : u.serviceType = t.configKey) :
    u.configKey = t.configKey := by
  rw [ResolvedServiceConfig.configKey, if_neg, h]
  rw [h]
  exact configKey_ne_custom t

theorem configKey_not_disabled
    (h : ∀ u ∈ resolved, u.configKey = t.configKey → u.enabled = true) :
    t.configKey ∉ disabledServices resolved := by
  rw [mem_disabledServices]
  rintro ⟨u, hu, hdis, htype⟩
  have := h u hu (configKey_of_serviceType htype)
  rw [hdis] at this
  contradiction

theorem tracked_of_mem_trackOnlyServices (h : t.configKey ∈ trackOnlyServices resolved) :
    Tracked resolved t := by
  obtain ⟨u, hu, hen, hmode, htype⟩ := mem_trackOnlyServices.mp h
  exact ⟨u, hu, hen, hmode, configKey_of_serviceType htype⟩

theorem varchar_configKey : varchar 50 t.configKey = t.serviceType ↔
    t.serviceType ≠ "custom" ∧ t.serviceType.length ≤ 50 := by
  rw [ResolvedServiceConfig.configKey]
  by_cases hcustom : t.serviceType = "custom"
  · rw [if_pos hcustom, hcustom]
    refine iff_of_false (fun h => ?_) fun h => h.1 rfl
    have hlength := congrArg String.length h
    rw [varchar, String.length_ofList, List.length_take, String.length_toList, String.length_append] at hlength
    have hseven : "custom:".length = 7 := by decide
    have hsix : "custom".length = 6 := by decide
    omega
  · rw [if_neg hcustom, varchar]
    constructor
    · intro h
      refine ⟨hcustom, ?_⟩
      rw [← h, String.length_ofList, List.length_take]
      omega
    · rintro ⟨-, hlength⟩
      rw [List.take_of_length_le, String.ofList_toList]
      rwa [String.length_toList]

theorem countedBy_iff {r : IpEvent} (ht : t ∈ resolved) (hen : t.enabled = true)
    (hmode : t.mode = .ban) (hfailure : r.eventType = .authFailure) (htrack : r.trackOnly = false) :
    CountedBy resolved t r ↔ r.service = t.serviceType := by
  have hmem : t.template ∈ banTemplates resolved := by
    refine List.mem_map.mpr ⟨t, List.mem_filter.mpr ⟨ht, ?_⟩, rfl⟩
    rw [hen, hmode]
    rfl
  constructor
  · rintro ⟨-, hcount⟩
    -- with no ban at all, at the time of the event itself
    have hnow := hcount .empty r.timestamp
    have hwindow : decide (r.timestamp - t.windowSeconds * 1000 ≤ r.timestamp) = true :=
      decide_eq_true (by omega)
    rw [hwindow] at hnow
    have hopen : isCounted .empty r.timestamp r.deviceId t.template r = true := hnow
    simp only [isCounted, Bool.and_eq_true, beq_iff_eq] at hopen
    exact hopen.1.1.1.1.2
  · intro hservice
    refine ⟨hmem, fun bans now => ?_⟩
    simp [isCounted, hservice, hfailure, htrack, ResolvedServiceConfig.template]

end agree

/-! ## The row of an emitted event -/

section kept
variable {re : Regexp} {defaultLogPath : String → String} {parseDate : String → Option Int}
  {resolved : List ResolvedServiceConfig} {t : ResolvedServiceConfig}
  {f : AgentFlush re defaultLogPath} {e : Agent.AgentIpEvent} {now : Int} {db : Db}

/-- The events of a flush that pass the intake and the gate fit the columns that store them. -/
def Storable (resolved : List ResolvedServiceConfig) (parseDate : String → Option Int)
    (f : AgentFlush re defaultLogPath) : Prop :=
  ∀ e ∈ f.events, foldDotted e.ip.toList = e.ip.toList → e.service ∉ disabledServices resolved →
    (receivedEvent parseDate e).fits = true

theorem received_text : ∀ ev ∈ (gated resolved (f.received parseDate)).events,
    ∃ a : Addr, ev.ip = some (String.ofList a.text) := by
  intro ev hev
  obtain ⟨e, he, rfl⟩ := List.mem_map.mp hev
  obtain ⟨configs, svcKey, hemit⟩ := f.emitted e he
  obtain ⟨a, ha⟩ := hemit.isEvent.2.ip
  exact ⟨Agent.unmap a, congrArg some ha⟩

theorem incoming_iff {ip : List Char} (he : e ∈ f.events) :
    (ip, receivedEvent parseDate e) ∈ incomingEvents (gated resolved (f.received parseDate)) ↔
      (ip = e.ip.toList ∧ foldDotted e.ip.toList = e.ip.toList) ∧
        e.service ∉ disabledServices resolved := by
  obtain ⟨configs, svcKey, hemit⟩ := f.emitted e he
  obtain ⟨a, ha⟩ := hemit.isEvent.2.ip
  have hnorm : normalizeEventIp (receivedEvent parseDate e).ip =
      if foldDotted e.ip.toList = e.ip.toList then some e.ip.toList else none := by
    rw [receivedEvent, ha, String.toList_ofList, normalizeEventIp_text]
  rw [incomingEvents, List.mem_filter, List.mem_filterMap]
  constructor
  · rintro ⟨⟨ev, -, hev⟩, hgate⟩
    obtain ⟨ip', hip, heq⟩ := Option.map_eq_some_iff.mp hev
    obtain ⟨rfl, rfl⟩ := Prod.mk.inj heq
    rw [hnorm] at hip
    split at hip
    · rename_i hfold
      exact ⟨⟨(Option.some.inj hip).symm, hfold⟩, by simpa [gated, receivedEvent] using hgate⟩
    · contradiction
  · rintro ⟨⟨rfl, hfold⟩, hgate⟩
    refine ⟨⟨_, List.mem_map.mpr ⟨e, he, rfl⟩, ?_⟩, by simpa [gated, receivedEvent] using hgate⟩
    rw [hnorm, if_pos hfold]
    rfl

theorem forall_incoming_fits_iff :
    (∀ p ∈ incomingEvents (gated resolved (f.received parseDate)), p.2.fits = true) ↔
      Storable resolved parseDate f := by
  constructor
  · intro hall e he hfold hgate
    exact hall _ ((incoming_iff he).mpr ⟨⟨rfl, hfold⟩, hgate⟩)
  · rintro hstorable ⟨ip, ev⟩ hp
    obtain ⟨ev', hev', hpair⟩ := List.mem_filterMap.mp (List.mem_of_mem_filter hp)
    obtain ⟨ip', -, heq⟩ := Option.map_eq_some_iff.mp hpair
    obtain ⟨rfl, rfl⟩ := Prod.mk.inj heq
    obtain ⟨e, he, rfl⟩ := List.mem_map.mp hev'
    obtain ⟨⟨-, hfold⟩, hgate⟩ := (incoming_iff he).mp hp
    exact hstorable e he hfold hgate

/-- A failure of the key of a template whose siblings are all enabled is kept exactly if its address
passes the intake, the flush fits its columns and, unless the service is tracked, the template is not
a custom one. -/
theorem kept_emitted_iff (ht : t ∈ resolved) (hen : t.enabled = true) (hmode : t.mode = .ban)
    (hsiblings : ∀ u ∈ resolved, u.configKey = t.configKey → u.enabled = true) (he : e ∈ f.events)
    (hservice : e.service = t.configKey) (hfailure : e.eventType = "auth_failure") :
    Kept resolved t (f.received parseDate) now (receivedEvent parseDate e) db
        (ingest (gated resolved (f.received parseDate)) now db) ↔
      foldDotted e.ip.toList = e.ip.toList ∧ Storable resolved parseDate f ∧
        (Tracked resolved t ∨ t.serviceType ≠ "custom" ∧ t.serviceType.length ≤ 50) := by
  have hungated : e.service ∉ disabledServices resolved := by
    rw [hservice]
    exact configKey_not_disabled hsiblings
  have hstored : varchar 50 e.service = varchar 50 t.configKey := by rw [hservice]
  have htype : ∀ x, ((receivedEvent parseDate e).row (gated resolved (f.received parseDate)) now x).eventType =
      .authFailure := by
    intro x
    have hfits : varchar 20 "auth_failure" = "auth_failure" := by decide
    rw [AgentIpEvent.row, receivedEvent, hfailure]
    exact if_pos hfits
  constructor
  · rintro ⟨rows, ip, r, hrows, hin, hrow, hmem, hkept⟩
    obtain ⟨⟨-, hfold⟩, -⟩ := (incoming_iff he).mp hin
    refine ⟨hfold, forall_incoming_fits_iff.mp fun p hp => ?_, hkept.imp_right fun ⟨htrack, hcounted⟩ => ?_⟩
    · by_contra hfits
      -- a flush that is refused adds no row
      rw [ingest_of_not_fits hp hfits, List.self_eq_append_right] at hrows
      rw [hrows] at hmem
      contradiction
    · obtain ⟨-, x, -, rfl⟩ := eventRow_eq_some.mp hrow
      have hr := (countedBy_iff ht hen hmode (htype x) htrack).mp hcounted
      exact varchar_configKey.mp (hstored.symm.trans hr)
  · rintro ⟨hfold, hstorable, hkept⟩
    have hin : (e.ip.toList, receivedEvent parseDate e) ∈
        incomingEvents (gated resolved (f.received parseDate)) :=
      (incoming_iff he).mpr ⟨⟨rfl, hfold⟩, hungated⟩
    have hfits := forall_incoming_fits_iff.mpr hstorable
    obtain ⟨rows, hrows, hmem⟩ := ingest_of_fits (b := gated resolved (f.received parseDate))
      received_text hfits now db
    obtain ⟨configs, svcKey, hemit⟩ := f.emitted e he
    obtain ⟨a, ha⟩ := hemit.isEvent.2.ip
    obtain ⟨r, hrow⟩ : ∃ r, eventRow (gated resolved (f.received parseDate)) now e.ip.toList
        (receivedEvent parseDate e) = some r := by
      refine ⟨_, eventRow_eq_some.mpr ⟨hfits _ hin, Agent.unmap a, ?_, rfl⟩⟩
      rw [ha, String.toList_ofList, parseAddr_text]
    refine ⟨rows, e.ip.toList, r, hrows, hin, hrow, hmem _ hin r hrow, ?_⟩
    by_cases htracked : Tracked resolved t
    · exact .inl htracked
    · obtain ⟨-, x, -, rfl⟩ := eventRow_eq_some.mp hrow
      have htrack : (trackOnlyServices resolved).contains e.service = false := by
        rw [hservice, List.contains_eq_mem]
        exact decide_eq_false fun h => htracked (tracked_of_mem_trackOnlyServices h)
      refine .inr ⟨htrack, ?_⟩
      refine (countedBy_iff ht hen hmode (htype x) htrack).mpr ?_
      exact hstored.trans (varchar_configKey.mpr (hkept.resolve_left htracked))

end kept

/-! ## Opt-in -/

/-- No template of the service is enabled and some are disabled; `service` names that of a template. -/
def Unserved (service : ResolvedServiceConfig → String) (ts : List ResolvedServiceConfig)
    (svc : String) : Prop :=
  (∃ u ∈ ts, service u = svc ∧ u.enabled = false) ∧ ∀ u ∈ ts, service u = svc → u.enabled = false

section main
variable {coll : Collation} {ts : List ResolvedServiceConfig} {t : ResolvedServiceConfig}

theorem storable_sortResolved {re : Regexp} {defaultLogPath : String → String}
    {parseDate : String → Option Int} {f : AgentFlush re defaultLogPath} :
    Storable (sortResolved coll ts) parseDate f ↔ Storable ts parseDate f := by
  simp only [Storable, mem_disabledServices, mem_sortResolved]

theorem tracked_sortResolved : Tracked (sortResolved coll ts) t ↔ Tracked ts t := by
  simp [Tracked]

theorem isServiceEnabled_sortResolved (ht : t ∈ ts) :
    Agent.isServiceEnabled (serviceConfigsMap (sortResolved coll ts)) t.configKey = true ↔
      (∀ u ∈ ts, u.configKey = t.configKey → u.enabled = true) ∧ t.configKey ≠ "__proto__" := by
  by_cases hproto : t.configKey = "__proto__"
  · rw [hproto, Agent.isServiceEnabled, serviceConfigsMap_proto]
    simp
  · rw [isServiceEnabled_serviceConfigsMap pairwise_sortResolved hproto]
    simp only [mem_sortResolved]
    constructor
    · rintro ⟨-, h⟩
      exact ⟨h, hproto⟩
    · rintro ⟨h, -⟩
      exact ⟨⟨t, ht, rfl⟩, h⟩

theorem emits_of_service {re : Regexp} {defaultLogPath : String → String}
    {f : AgentFlush re defaultLogPath} {e : Agent.AgentIpEvent} {configs : Agent.ServiceConfigs}
    (henabled : Agent.isServiceEnabled configs t.configKey = true) (he : e ∈ f.events)
    (hservice : e.service = t.configKey) (hfailure : e.eventType = "auth_failure") :
    Emits re defaultLogPath configs t.configKey e := by
  obtain ⟨before, svcKey, hemit⟩ := f.emitted e he
  have hkey : svcKey = t.configKey := (hemit.isEvent.2.service hfailure).symm.trans hservice
  rw [hkey] at hemit
  exact hemit.of_enabled henabled

theorem kept_sortResolved_iff {re : Regexp} {defaultLogPath : String → String}
    {parseDate : String → Option Int} {f : AgentFlush re defaultLogPath} {e : Agent.AgentIpEvent}
    {now : Int} {db : Db} (ht : t ∈ ts) (hen : t.enabled = true) (hmode : t.mode = .ban)
    (hsiblings : ∀ u ∈ ts, u.configKey = t.configKey → u.enabled = true) (he : e ∈ f.events)
    (hemit : Emits re defaultLogPath (serviceConfigsMap (sortResolved coll ts)) t.configKey e)
    (hfailure : e.eventType = "auth_failure") :
    Kept (sortResolved coll ts) t (f.received parseDate) now (receivedEvent parseDate e) db
        (ingest (gated (sortResolved coll ts) (f.received parseDate)) now db) ↔
      foldDotted e.ip.toList = e.ip.toList ∧ Storable ts parseDate f ∧
        (Tracked ts t ∨ t.serviceType ≠ "custom" ∧ t.serviceType.length ≤ 50) := by
  have hsorted : ∀ u ∈ sortResolved coll ts, u.configKey = t.configKey → u.enabled = true :=
    fun u hu => hsiblings u (mem_sortResolved.mp hu)
  rw [kept_emitted_iff (mem_sortResolved.mpr ht) hen hmode hsorted he (hemit.isEvent.2.service hfailure)
    hfailure, tracked_sortResolved, storable_sortResolved]

/-- A row that a flush adds is that of an event whose service no disabled template names. A service by
its key in the frame whose templates are all disabled is that of a custom log, which no gate knows. -/
theorem ungated_rows (fl : Flush) (now : Int) (db : Db) : ∃ rows,
    (ingest (gated (sortResolved coll ts) fl) now db).events = db.events ++ rows ∧
      ∀ r ∈ rows, ∃ ev ∈ fl.events, ∃ ip, eventRow (gated (sortResolved coll ts) fl) now ip ev = some r ∧
        ¬ Unserved (·.serviceType) ts ev.service ∧
        (Unserved (·.configKey) ts ev.service →
          ∀ u ∈ ts, u.configKey = ev.service → u.serviceType = "custom") := by
  obtain ⟨rows, hrows, hmem⟩ := ingest_rows (gated (sortResolved coll ts) fl) now db
  refine ⟨rows, hrows, fun r hr => ?_⟩
  obtain ⟨p, hp, hrow⟩ := hmem r hr
  obtain ⟨ev, hev, hpair⟩ := List.mem_filterMap.mp (List.mem_of_mem_filter hp)
  obtain ⟨ip, -, rfl⟩ := Option.map_eq_some_iff.mp hpair
  refine ⟨ev, hev, ip, hrow, ?_⟩
  have hgate : ev.service ∉ disabledServices (sortResolved coll ts) := by
    simpa [gated] using (List.mem_filter.mp hp).2
  rw [mem_disabledServices] at hgate
  simp only [mem_sortResolved] at hgate
  constructor
  · rintro ⟨⟨u, hu, htype, hdis⟩, -⟩
    exact hgate ⟨u, hu, hdis, htype⟩
  · rintro ⟨-, hall⟩ u hu hkey
    by_contra htype
    have hdis := hall u hu hkey
    rw [ResolvedServiceConfig.configKey, if_neg htype] at hkey
    exact hgate ⟨u, hu, hdis, hkey⟩

end main

/-- An enabled template in ban mode is opted in, from the frame to the count, exactly if every
template of its key is enabled, and a failure of that key has an address which the intake does not
cut, comes in a flush whose texts fit their columns, and belongs to a service that is tracked or not
custom. No path stores an event of a service whose templates are disabled. -/
theorem optedIn_iff (re : Regexp) (defaultLogPath : String → String) (coll : Collation)
    (parseDate : String → Option Int) (ts : List ResolvedServiceConfig) (t : ResolvedServiceConfig)
    (ht : t ∈ ts) (hen : t.enabled = true) (hmode : t.mode = .ban)
    (f : AgentFlush re defaultLogPath) (e : Agent.AgentIpEvent) (he : e ∈ f.events) (now : Int)
    (db : Db) :
    (OptedIn re defaultLogPath coll parseDate ts t f e now db ↔
      (∀ u ∈ ts, u.configKey = t.configKey → u.enabled = true) ∧ t.configKey ≠ "__proto__" ∧
        (e.service = t.configKey → e.eventType = "auth_failure" →
          foldDotted e.ip.toList = e.ip.toList ∧ Storable ts parseDate f ∧
            (Tracked ts t ∨ t.serviceType ≠ "custom" ∧ t.serviceType.length ≤ 50))) ∧
    ∀ (fl : Flush) (approved : Bool), ∀ db' ∈ [handlePushEvents (sortResolved coll ts) fl now db,
        processEventsFlush approved (sortResolved coll ts) fl now db],
      ∃ rows, db'.events = db.events ++ rows ∧
        ∀ r ∈ rows, ∃ ev ∈ fl.events, ∃ ip, eventRow (gated (sortResolved coll ts) fl) now ip ev = some r ∧
          ¬ Unserved (·.serviceType) ts ev.service ∧
          (Unserved (·.configKey) ts ev.service →
            ∀ u ∈ ts, u.configKey = ev.service → u.serviceType = "custom") := by
  constructor
  · constructor
    · intro h
      obtain ⟨hsiblings, hproto⟩ := (isServiceEnabled_sortResolved ht).mp h.enabled
      refine ⟨hsiblings, hproto, fun hservice hfailure => ?_⟩
      have hemit := emits_of_service h.enabled he hservice hfailure
      exact (kept_sortResolved_iff ht hen hmode hsiblings he hemit hfailure).mp
        (h.pushed hemit hfailure)
    · rintro ⟨hsiblings, hproto, h⟩
      refine ⟨(isServiceEnabled_sortResolved ht).mpr ⟨hsiblings, hproto⟩, fun hemit hfailure => ?_,
        fun hemit hfailure => ?_⟩
      · exact (kept_sortResolved_iff ht hen hmode hsiblings he hemit hfailure).mpr
          (h (hemit.isEvent.2.service hfailure) hfailure)
      · exact (kept_sortResolved_iff ht hen hmode hsiblings he hemit hfailure).mpr
          (h (hemit.isEvent.2.service hfailure) hfailure)
  · intro fl approved db' hdb'
    rw [List.mem_cons, List.mem_singleton] at hdb'
    rcases hdb' with rfl | rfl
    · exact ungated_rows fl now db
    · cases approved with
      | true => exact ungated_rows fl now db
      | false => exact ⟨[], by simp [processEventsFlush], by simp⟩

/-! A failed login on a Linux host, which the default `ssh` template counts. -/

/-- What sshd writes of a failed login. -/
def authLine : String := "Failed password for root from 203.0.113.7 port 4242 ssh2"

/-- What the patterns find in that line. -/
def authRegexp : Regexp where
  findStringSubmatch pattern s :=
    if pattern = Agent.sshFailRe ∧ s = authLine then some [authLine, "", "root", "203.0.113.7"]
    else none
  findStringIndex _ _ := none
  subexpNames _ := some [""]

/-- `defaultLogPathLinux` of a host with `/var/log/auth.log` and no other log. -/
def linuxLogPath (svc : String) : String := if svc = "ssh" then "/var/log/auth.log" else ""

def stampAt (_ : Nat) : Agent.Stamp := ⟨"e-1", "2024-05-01T00:00:00Z"⟩

/-- The event of the failed login. -/
def authFailure : Agent.AgentIpEvent :=
  Agent.makeEvent (stampAt 0) "203.0.113.7" "root" "ssh" "auth_failure" authLine

/-- The order of names in plain ASCII of one case. -/
def plainCollation : Collation where
  le a b := decide (a ≤ b)
  le_trans _ _ _ hab hbc := decide_eq_true (le_trans (of_decide_eq_true hab) (of_decide_eq_true hbc))
  le_total a b := (le_total a b).imp decide_eq_true decide_eq_true

/-- The `ssh` template, enabled. -/
def sshTemplate : ResolvedServiceConfig :=
  ⟨1, "ssh", "ssh", none, none, 5, 600, true, .ban, false⟩

/-- A template of the same type, left disabled. -/
def sshDisabled : ResolvedServiceConfig :=
  ⟨12, "ssh strict", "ssh", none, none, 2, 600, false, .ban, false⟩

theorem emits_authFailure {configs : Agent.ServiceConfigs}
    (h : configs "ssh" = some sshTemplate.agentConfig) :
    Emits authRegexp linuxLogPath configs "ssh" authFailure := by
  have henabled : sshTemplate.agentConfig.enabled = true := rfl
  have hparser : Agent.getParser "ssh" sshTemplate.agentConfig.customRegex = some .ssh := rfl
  refine .tailed [] [⟨authLine, stampAt⟩] henabled (by decide) hparser ?_
  have hpath : Agent.isChildPath (Agent.resolveLogPath linuxLogPath "ssh") = false := by decide
  have hopen : Agent.isServiceEnabled configs "ssh" = true := by
    rw [Agent.isServiceEnabled, h]
    rfl
  have hline : Agent.tailFileLine authRegexp configs "ssh" .ssh ⟨authLine, stampAt⟩ =
      some (.ssh, [authFailure]) := by
    rw [Agent.tailFileLine, if_pos hopen]
    decide +kernel
  rw [Agent.tailPath, hpath]
  simp [Agent.tail, hline]

/-- The flush of the failed login. -/
def authFlush : AgentFlush authRegexp linuxLogPath where
  deviceId := 3
  tenantId := 2
  events := [authFailure]
  emitted e he := by
    rw [List.mem_singleton.mp he]
    exact ⟨serviceConfigsMap [sshTemplate], "ssh", emits_authFailure rfl⟩

theorem storable_authFlush {ts : List ResolvedServiceConfig} : Storable ts (fun _ => some 0) authFlush := by
  intro e he _ _
  rw [List.mem_singleton.mp he]
  decide +kernel

/-- Alone, the enabled template is opted in. -/
theorem optedIn_authFailure : OptedIn authRegexp linuxLogPath plainCollation (fun _ => some 0)
    [sshTemplate] sshTemplate authFlush authFailure 0 Db.empty :=
  (optedIn_iff authRegexp linuxLogPath plainCollation (fun _ => some 0) [sshTemplate] sshTemplate
    (by simp) rfl rfl authFlush authFailure (by simp [authFlush]) 0 Db.empty).1.mpr
    ⟨by simp [sshTemplate], by decide, fun _ _ => ⟨by decide +kernel, storable_authFlush, .inr (by decide)⟩⟩

/-- Beside a disabled template of its type it is not: the frame disables the service, and neither path
stores the failure. -/
theorem not_optedIn_disabledSibling :
    ¬ OptedIn authRegexp linuxLogPath plainCollation (fun _ => some 0) [sshTemplate, sshDisabled]
      sshTemplate authFlush authFailure 0 Db.empty ∧
    (handlePushEvents (sortResolved plainCollation [sshTemplate, sshDisabled])
      (authFlush.received fun _ => some 0) 0 Db.empty).events = [] ∧
    (processEventsFlush true (sortResolved plainCollation [sshTemplate, sshDisabled])
      (authFlush.received fun _ => some 0) 0 Db.empty).events = [] := by
  refine ⟨fun h => ?_, by decide +kernel, by decide +kernel⟩
  exact absurd h.enabled (by decide +kernel)

end Obliguard.Server

import Mathlib.Data.List.Sort
import Mathlib.Data.List.TakeWhile
import Obliguard.Agent.LogWatcher
import Obliguard.Server.BanEngine

/-!
# Service templates

The resolved templates of a device (`sortResolved` of
`server/src/services/serviceTemplate.service.ts`) and the four places that read them: the service
configs of the config frame and the opt-in gates of the two ingestion paths
(`agent.service.ts`), and the templates of the BanEngine (`ban.service.ts`). How a template is
resolved from its rows and their overrides is an input.

`isServiceEnabled_serviceConfigsMap` says when the service of a key is enabled, and `ingest_of_fits`
what a flush stores whose addresses are texts of addresses.
-/

namespace Obliguard.Server

open Bans IpValidation Text Numeral AddrText

/-! ## Resolved templates -/

/-- `ServiceTemplateMode`. -/
inductive ServiceTemplateMode
  | ban
  | track
deriving DecidableEq

/-- `ResolvedServiceConfig`. -/
structure ResolvedServiceConfig where
  templateId : Nat
  name : String
  serviceType : String
  logPath : Option String
  customRegex : Option String
  threshold : Nat
  windowSeconds : Nat
  enabled : Bool
  mode : ServiceTemplateMode
  sampleRequested : Bool
deriving DecidableEq

/-- `localeCompare`, as a consistent order of names. -/
structure Collation where
  le : String → String → Bool
  le_trans : ∀ a b c, le a b = true → le b c = true → le a c = true
  le_total : ∀ a b, le a b = true ∨ le b a = true

/-- The comparison of `sortResolved`: enabled first, then by name. -/
def Collation.resolvedLe (coll : Collation) (a b : ResolvedServiceConfig) : Prop :=
  if a.enabled ≠ b.enabled then a.enabled = true else coll.le a.name b.name = true

instance (coll : Collation) : DecidableRel coll.resolvedLe := fun a b =>
  inferInstanceAs (Decidable (if a.enabled ≠ b.enabled then _ else _))

/-- `sortResolved`. -/
def sortResolved (coll : Collation) (resolved : List ResolvedServiceConfig) :
    List ResolvedServiceConfig :=
  resolved.insertionSort coll.resolvedLe

section sorting
variable {coll : Collation} {resolved : List ResolvedServiceConfig} {t : ResolvedServiceConfig}

@[simp] theorem mem_sortResolved : t ∈ sortResolved coll resolved ↔ t ∈ resolved :=
  (List.perm_insertionSort coll.resolvedLe resolved).mem_iff

theorem resolvedLe_total (a b : ResolvedServiceConfig) : coll.resolvedLe a b ∨ coll.resolvedLe b a := by
  unfold Collation.resolvedLe
  by_cases h : a.enabled = b.enabled
  · simpa [h] using coll.le_total a.name b.name
  · cases ha : a.enabled <;> cases hb : b.enabled <;> simp_all

theorem resolvedLe_trans {a b c : ResolvedServiceConfig} (hab : coll.resolvedLe a b)
    (hbc : coll.resolvedLe b c) : coll.resolvedLe a c := by
  unfold Collation.resolvedLe at *
  have htrans := coll.le_trans a.name b.name c.name
  cases ha : a.enabled <;> cases hb : b.enabled <;> cases hc : c.enabled <;> simp_all

theorem pairwise_sortResolved :
    (sortResolved coll resolved).Pairwise fun a b => b.enabled = true → a.enabled = true := by
  have : Std.Total coll.resolvedLe := ⟨resolvedLe_total⟩
  have : IsTrans ResolvedServiceConfig coll.resolvedLe := ⟨fun _ _ _ => resolvedLe_trans⟩
  refine (List.pairwise_insertionSort coll.resolvedLe resolved).imp fun {a b} hab hb => ?_
  unfold Collation.resolvedLe at hab
  split at hab
  · exact hab
  · rename_i heq
    rw [ne_eq, not_not] at heq
    rw [heq, hb]

end sorting

/-! ## The config frame -/

/-- The key of a template in the config frame. -/
def ResolvedServiceConfig.configKey (cfg : ResolvedServiceConfig) : String :=
  if cfg.serviceType = "custom" then "custom:" ++ cfg.logPath.getD (toString cfg.templateId)
  else cfg.serviceType

/-- The config that the agent gets of a template. -/
def ResolvedServiceConfig.agentConfig (cfg : ResolvedServiceConfig) : Agent.AgentServiceConfig where
  enabled := cfg.enabled
  threshold := cfg.threshold
  windowSeconds := cfg.windowSeconds
  customRegex := cfg.customRegex
  sampleRequested := cfg.sampleRequested

/-- `serviceConfigsMap[key] = cfg` on a plain object, where `__proto__` names no own property. -/
def assignConfig (configs : Agent.ServiceConfigs) (cfg : ResolvedServiceConfig) :
    Agent.ServiceConfigs :=
  if cfg.configKey = "__proto__" then configs
  else fun key => if key = cfg.configKey then some cfg.agentConfig else configs key

/-- `serviceConfigsMap` of `handlePush`. -/
def serviceConfigsMap (resolved : List ResolvedServiceConfig) : Agent.ServiceConfigs :=
  resolved.foldl assignConfig fun _ => none

section frame
variable {resolved : List ResolvedServiceConfig} {coll : Collation} {key : String}

theorem configKey_ne_custom (cfg : ResolvedServiceConfig) : cfg.configKey ≠ "custom" := by
  unfold ResolvedServiceConfig.configKey
  split
  · intro h
    have hlen := congrArg String.length h
    rw [String.length_append] at hlen
    have hcustom : "custom".length = 6 := by decide
    have hprefix : "custom:".length = 7 := by decide
    omega
  · assumption

theorem assignConfig_self {configs : Agent.ServiceConfigs} {cfg : ResolvedServiceConfig}
    (h : cfg.configKey ≠ "__proto__") :
    assignConfig configs cfg cfg.configKey = some cfg.agentConfig := by
  rw [assignConfig, if_neg h]
  exact if_pos rfl

theorem assignConfig_of_ne {configs : Agent.ServiceConfigs} {cfg : ResolvedServiceConfig}
    (h : cfg.configKey ≠ key) : assignConfig configs cfg key = configs key := by
  rw [assignConfig]
  split
  · rfl
  · exact if_neg (Ne.symm h)

theorem serviceConfigsMap_append (cfg : ResolvedServiceConfig) :
    serviceConfigsMap (resolved ++ [cfg]) = assignConfig (serviceConfigsMap resolved) cfg := by
  rw [serviceConfigsMap, List.foldl_append]
  rfl

theorem serviceConfigsMap_proto : serviceConfigsMap resolved "__proto__" = none := by
  induction resolved using List.reverseRecOn with
  | nil => rfl
  | append_singleton resolved cfg ih =>
    rw [serviceConfigsMap_append]
    by_cases hkey : cfg.configKey = "__proto__"
    · rw [assignConfig, if_pos hkey, ih]
    · rw [assignConfig_of_ne hkey, ih]

/-- In a list with the enabled templates first, a key that some template has is enabled exactly if
all templates of it are. -/
theorem isServiceEnabled_serviceConfigsMap
    (hsorted : resolved.Pairwise fun a b => b.enabled = true → a.enabled = true)
    (hkey : key ≠ "__proto__") : Agent.isServiceEnabled (serviceConfigsMap resolved) key = true ↔
      (∃ u ∈ resolved, u.configKey = key) ∧ ∀ u ∈ resolved, u.configKey = key → u.enabled = true := by
  induction resolved using List.reverseRecOn with
  | nil => simp [serviceConfigsMap, Agent.isServiceEnabled]
  | append_singleton resolved cfg ih =>
    obtain ⟨hinit, -, hlast⟩ := List.pairwise_append.mp hsorted
    rw [serviceConfigsMap_append, Agent.isServiceEnabled]
    by_cases hcfg : cfg.configKey = key
    · -- the last template of the key decides, and it is enabled only after enabled ones
      subst hcfg
      rw [assignConfig_self hkey, Option.any_some]
      constructor
      · intro henabled
        refine ⟨⟨cfg, by simp, rfl⟩, fun u hu _ => ?_⟩
        rcases List.mem_append.mp hu with hu | hu
        · exact hlast u hu cfg (by simp) henabled
        · rw [List.mem_singleton.mp hu]
          exact henabled
      · intro h
        exact h.2 cfg (by simp) rfl
    · rw [assignConfig_of_ne hcfg]
      refine (ih hinit).trans ?_
      simp only [List.mem_append, List.mem_singleton]
      constructor
      · rintro ⟨⟨u, hu, hk⟩, hall⟩
        refine ⟨⟨u, .inl hu, hk⟩, ?_⟩
        rintro v (hv | rfl) hvk
        · exact hall v hv hvk
        · exact absurd hvk hcfg
      · rintro ⟨⟨u, hu | rfl, hk⟩, hall⟩
        · exact ⟨⟨u, hu, hk⟩, fun v hv => hall v (.inl hv)⟩
        · exact absurd hk hcfg

end frame

/-! ## The gates and the engine -/

/-- `trackOnlyServices` of both ingestion paths. -/
def trackOnlyServices (resolved : List ResolvedServiceConfig) : List String :=
  (resolved.filter fun cfg => cfg.enabled && cfg.mode == .track).map (·.serviceType)

/-- `disabledServices` of both ingestion paths. -/
def disabledServices (resolved : List ResolvedServiceConfig) : List String :=
  (resolved.filter fun cfg => !cfg.enabled).map (·.serviceType)

/-- An event as the server reads it, its time with `Date.parse`. The agent leaves empty texts out. -/
def receivedEvent (parseDate : String → Option Int) (e : Agent.AgentIpEvent) : AgentIpEvent where
  ip := some e.ip
  username := if e.username = "" then none else some e.username
  service := e.service
  eventType := e.eventType
  timestamp := parseDate e.timestamp
  rawLog := if e.rawLog = [] then none else some e.rawLog

/-- Events of a device that reach the server. -/
structure Flush where
  deviceId : Nat
  tenantId : Nat
  events : List AgentIpEvent

/-- A flush behind the opt-in gate. -/
def gated (resolved : List ResolvedServiceConfig) (f : Flush) : EventBatch where
  deviceId := f.deviceId
  tenantId := f.tenantId
  disabledServices := disabledServices resolved
  trackOnlyServices := trackOnlyServices resolved
  events := f.events

/-- The events of `handlePush`. -/
def handlePushEvents (resolved : List ResolvedServiceConfig) (f : Flush) (now : Int) (db : Db) : Db :=
  ingest (gated resolved f) now db

/-- `processEventsFlush`: the device must exist in the tenant and be approved. -/
def processEventsFlush (approved : Bool) (resolved : List ResolvedServiceConfig) (f : Flush)
    (now : Int) (db : Db) : Db :=
  if approved then ingest (gated resolved f) now db else db

/-- A template as the BanEngine reads it. -/
def ResolvedServiceConfig.template (cfg : ResolvedServiceConfig) : Template where
  serviceType := cfg.serviceType
  windowSeconds := cfg.windowSeconds
  threshold := cfg.threshold

/-- The templates that `evaluateThresholds` counts for a device. -/
def banTemplates (resolved : List ResolvedServiceConfig) : List Template :=
  (resolved.filter fun cfg => cfg.enabled && cfg.mode == .ban).map (·.template)

/-! ## Addresses of events -/

theorem textV6_chars {v : Nat} {c : Char} (h : c ∈ textV6 v) :
    c = ':' ∨ ∃ n, c ∈ Nat.toDigits 16 n := by
  have hfields : ∀ gs : List Nat, c ∈ List.intercalate [':'] (gs.map (Nat.toDigits 16)) →
      c = ':' ∨ ∃ n, c ∈ Nat.toDigits 16 n := by
    intro gs hc
    rcases mem_intercalate_singleton hc with hc | ⟨p, hp, hc⟩
    · exact .inl hc
    · obtain ⟨n, -, rfl⟩ := List.mem_map.mp hp
      exact .inr ⟨n, hc⟩
  unfold textV6 joinFields at h
  dsimp only at h
  split at h
  · exact hfields _ h
  · rw [← List.map_take, ← List.map_drop, List.mem_append, List.mem_append] at h
    rcases h with (h | h) | h
    · exact hfields _ h
    · simp only [List.mem_cons, List.not_mem_nil, or_false, or_self] at h
      exact .inl h
    · exact hfields _ h

theorem toLower_digitChar : ∀ d < 16, (Nat.digitChar d).toLower = Nat.digitChar d := by decide

theorem toLower_of_mem_toDigits {b n : Nat} (h1 : 1 < b) (hb : b ≤ 16) {c : Char}
    (h : c ∈ Nat.toDigits b n) : c.toLower = c := by
  induction n using Nat.strong_induction_on with
  | _ n ih =>
    rw [Nat.toDigits_eq_if h1] at h
    split at h
    · rename_i hlt
      rw [List.mem_singleton.mp h]
      exact toLower_digitChar n (by omega)
    · rename_i hge
      rcases List.mem_append.mp h with h | h
      · exact ih _ (Nat.div_lt_self (by omega) h1) h
      · rw [List.mem_singleton.mp h]
        exact toLower_digitChar _ ((Nat.mod_lt n (by omega)).trans_le hb)

theorem textV4_chars {v : Nat} {c : Char} (h : c ∈ textV4 v) :
    c = '.' ∨ ∃ n, c ∈ Nat.toDigits 10 n := by
  rcases mem_intercalate_singleton h with h | ⟨p, hp, h⟩
  · exact .inl h
  · obtain ⟨n, -, rfl⟩ := List.mem_map.mp hp
    exact .inr ⟨n, h⟩

theorem dot_not_mem_textV6 (v : Nat) : '.' ∉ textV6 v := by
  intro h
  rcases textV6_chars h with h | ⟨n, h⟩
  · exact absurd h (by decide)
  · exact not_mem_toDigits (by omega) (by omega) n not_digit_dot h

theorem toLower_text (a : Addr) : a.text.map Char.toLower = a.text := by
  conv_rhs => rw [← List.map_id a.text]
  apply List.map_congr_left
  intro c hc
  rw [id]
  unfold Addr.text at hc
  split at hc
  · rcases textV4_chars hc with rfl | ⟨n, hc⟩
    · decide
    · exact toLower_of_mem_toDigits (by omega) (by omega) hc
  · rcases textV6_chars hc with rfl | ⟨n, hc⟩
    · decide
    · exact toLower_of_mem_toDigits (by omega) (by omega) hc

theorem isAddrChar_text (a : Addr) : ∀ c ∈ a.text, IsAddrChar c :=
  (parseAddr_spec (parseAddr_text a)).1

theorem jsTrim_addrText (a : Addr) : jsTrim a.text = a.text :=
  trimBy_eq_self fun c hc => (isTargetChar_not_space (.inr (isAddrChar_text a c hc))).1

theorem stripBrackets_text (a : Addr) : stripBrackets a.text = a.text := by
  rw [stripBrackets, if_neg]
  rintro ⟨hhead, -⟩
  have hmem : '[' ∈ a.text := List.mem_of_mem_head? hhead
  rcases isAddrChar_text a _ hmem with h | h | h
  · exact absurd h (by decide)
  · exact absurd h (by decide)
  · exact absurd h (by decide)

theorem isIPZoned_text (a : Addr) : isIPZoned a.text = some a.family := by
  have hparse := parseAddr_eq_some.mp (parseAddr_text a)
  have hip : isIP a.text = some a.family := by
    rw [isIP]
    cases hf : a.family with
    | v4 =>
      rw [hf] at hparse
      simp [hparse]
    | v6 =>
      rw [hf] at hparse
      cases h4 : parseV4 a.text with
      | some v =>
        rw [parseV6_of_parseV4 h4] at hparse
        contradiction
      | none => simp [hparse]
  rw [isIPZoned, hip]

theorem isIPZoned_digits {s : List Char} (hs : ∀ c ∈ s, c.isDigit || c == '.') (hdot : '.' ∉ s) :
    isIPZoned s = none := by
  have hmem : ∀ c ∈ s, c.isDigit = true := by
    intro c hc
    rcases Bool.or_eq_true_iff.mp (hs c hc) with h | h
    · exact h
    · rw [beq_iff_eq] at h
      exact absurd (h ▸ hc) hdot
  have hcolon : ':' ∉ s := fun h => absurd (hmem _ h) (by decide)
  have hpercent : ∀ c ∈ s, c ≠ '%' := fun c hc heq => absurd (heq ▸ hmem c hc) (by decide)
  have h4 : parseV4 s = none := by
    rw [parseV4, List.splitOn_eq_singleton hdot, if_neg (by simp)]
  have hzone : s.dropWhile (· ≠ '%') = [] := by
    rw [List.dropWhile_eq_nil_iff]
    intro c hc
    simpa using hpercent c hc
  have hip : isIP s = none := by
    rw [isIP, h4, parseV6_of_no_colon hcolon]
    rfl
  rw [isIPZoned, hip, hzone]

/-- What `foldDotted` makes of the text of an address is that text or none of an address: only the
text of an IPv6 address starts with `::ffff:`, and it has no dot. -/
theorem isIPZoned_foldDotted {a : Addr} (h : foldDotted a.text ≠ a.text) :
    isIPZoned (foldDotted a.text) = none := by
  unfold foldDotted at h ⊢
  dsimp only at h ⊢
  split at h
  · rename_i hmapped
    rw [if_pos hmapped]
    obtain ⟨hstart, -, hdigits⟩ := hmapped
    rw [List.map_take, toLower_text] at hstart
    have hcolon : ':' ∈ a.text := by
      apply List.mem_of_mem_take (i := 7)
      rw [hstart]
      decide
    have hdot : '.' ∉ a.text := by
      obtain ⟨f, v, hv⟩ := a
      cases f with
      | v4 => exact absurd hcolon (Inet.colon_not_mem_textV4 hv)
      | v6 => exact dot_not_mem_textV6 v
    exact isIPZoned_digits (List.all_eq_true.mp hdigits) fun h => hdot (List.mem_of_mem_drop h)
  · exact absurd rfl h

/-- The text of an address is left as it is, but for an IPv6 address that ends in digits after
`::ffff:`, which is cut down to the digits and refused. -/
theorem normalizeEventIp_text (a : Addr) : normalizeEventIp (some (String.ofList a.text)) =
    if foldDotted a.text = a.text then some a.text else none := by
  rw [normalizeEventIp, Option.bind_some, String.toList_ofList, jsTrim_addrText, stripBrackets_text]
  dsimp only
  by_cases hfold : foldDotted a.text = a.text
  · rw [if_pos hfold, hfold, isIPZoned_text]
    cases a.family with
    | v4 => rfl
    | v6 => exact congrArg some (toLower_text a)
  · rw [if_neg hfold, isIPZoned_foldDotted hfold]

example : normalizeEventIp (some "::ffff:c0a8") = some "::ffff:c0a8".toList ∧
    normalizeEventIp (some "::ffff:5") = none := by decide +kernel

/-! ## What a flush stores -/

theorem ingest_rows (b : EventBatch) (now : Int) (db : Db) : ∃ rows,
    (ingest b now db).events = db.events ++ rows ∧
      ∀ r ∈ rows, ∃ p ∈ incomingEvents b, eventRow b now p.1 p.2 = some r := by
  unfold ingest
  split
  · exact ⟨[], by simp, by simp⟩
  · rename_i rows hrows
    exact ⟨rows, rfl, fun r hr => mem_of_mapM hrows hr⟩

theorem ingest_of_not_fits {b : EventBatch} {p : List Char × AgentIpEvent} (hp : p ∈ incomingEvents b)
    (hfits : p.2.fits ≠ true) (now : Int) (db : Db) : ingest b now db = db := by
  unfold ingest
  split
  · rfl
  · rename_i rows hrows
    obtain ⟨r, hr⟩ := Option.isSome_iff_exists.mp (mapM_isSome_iff.mp (Option.isSome_of_eq_some hrows) p hp)
    exact absurd (eventRow_eq_some.mp hr).1 hfits

/-- A flush whose addresses are texts of addresses, and whose texts fit, stores every event that passed the gate. -/
theorem ingest_of_fits {b : EventBatch} (h : ∀ ev ∈ b.events, ∃ a : Addr, ev.ip = some (String.ofList a.text))
    (hfits : ∀ p ∈ incomingEvents b, p.2.fits = true) (now : Int) (db : Db) :
    ∃ rows, (ingest b now db).events = db.events ++ rows ∧
      ∀ p ∈ incomingEvents b, ∀ r, eventRow b now p.1 p.2 = some r → r ∈ rows := by
  have hread : ∀ p ∈ incomingEvents b, (eventRow b now p.1 p.2).isSome := by
    intro p hp
    have hfit := hfits p hp
    obtain ⟨ev, hev, hp⟩ := List.mem_filterMap.mp (List.mem_of_mem_filter hp)
    obtain ⟨ip, hip, rfl⟩ := Option.map_eq_some_iff.mp hp
    obtain ⟨a, ha⟩ := h ev hev
    rw [ha, normalizeEventIp_text] at hip
    split at hip
    · cases hip
      exact Option.isSome_iff_exists.mpr ⟨_, eventRow_eq_some.mpr ⟨hfit, a, parseAddr_text a, rfl⟩⟩
    · contradiction
  obtain ⟨rows, hrows⟩ := Option.isSome_iff_exists.mp (mapM_isSome_iff.mpr hread)
  refine ⟨rows, ?_, fun p hp r hr => mem_mapM hrows hp hr⟩
  rw [ingest, hrows]

end Obliguard.Server

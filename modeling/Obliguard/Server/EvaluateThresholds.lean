import Obliguard.Lib.Selection
import Obliguard.Lib.Separators
import Obliguard.Server.BanEngine
import Obliguard.Server.EvaluateOnly
import Obliguard.Server.ResolvedTemplates

/-!
# The batches of `evaluateThresholds`

`evaluateThresholds` of `server/src/services/ban.service.ts` with its queries: the devices and the resolver of their
templates in one batch, one aggregate for all devices that share a service, a window and a threshold, and the rows
joined back to each device by a text key.

`enginePlan_eq` says that the devices and templates are those of each device by itself, and `mem_joined_iff` that a
device and a template get the rows of their own aggregate `hits`.
-/

namespace Obliguard.Server

open AddrText Numeral

/-! ## The devices -/

/-- The tables, with those of the service templates and the stored values of `autoBanEnabled`. -/
structure EngineDb extends DryRunDb where
  templates : Keyed ServiceTemplateRow.id
  assignments : Keyed ServiceTemplateAssignmentRow.key
  /-- The value stored at a level and a scope id, if it is a boolean. -/
  autoBanSetting : SettingLevel → Option Nat → Option Bool
  /-- The column refers to a serial one. -/
  descendant_pos : ∀ c ∈ closure, 0 < c.descendantId

def EngineDb.templateDb (db : EngineDb) : TemplateDb := ⟨db.templates, db.assignments, db.closure⟩

/-- `resolveChain` at the key `autoBanEnabled`: the nearest level that stores a value, else the default. -/
def autoBanEnabled (db : EngineDb) (d : Device) : Bool :=
  (deviceChain db.toDryRunDb (loadChains db.toDryRunDb) d).foldl
    (fun value lvl => (db.autoBanSetting lvl.level lvl.scopeId).getD value) true

def autoBanDisabledIds (db : EngineDb) (refs : List Device) : List Nat :=
  (refs.filter fun d => !autoBanEnabled db d).map (·.id)

/-- The observed devices whose auto-ban is not off, with their group ancestries. -/
def evaluated (db : EngineDb) : List (Device × List Nat) :=
  let autoBanOff := autoBanDisabledIds db ((observed db.toDryRunDb).map (·.1))
  (observed db.toDryRunDb).filter fun o => !autoBanOff.contains o.1.id

/-- The evaluated devices with their enabled templates in ban mode. -/
def enginePlan (coll : Collation) (db : EngineDb) : List (Nat × List Template) :=
  let resolvedByDevice := resolveForAgents coll db.templateDb ((evaluated db).map fun o => ⟨o.1.id, o.2⟩)
  (evaluated db).map fun o =>
    (o.1.id, banTemplates (((resolvedByDevice o.1.id).getD []).map ResolvedEntry.toResolvedServiceConfig))

/-! ## The windows -/

/-- The code point 0 between the parts of a key. -/
def nul : Char := Char.ofNat 0

def windowKey (cfg : Template) : List Char :=
  cfg.serviceType.toList ++ nul :: (Nat.toDigits 10 cfg.windowSeconds ++ nul :: Nat.toDigits 10 cfg.threshold)

/-- The devices that share a service, a window and a threshold. -/
structure Window extends Template where
  deviceIds : List Nat

/-- `deviceIds.add`. -/
def Window.add (w : Window) (deviceId : Nat) : Window :=
  { w with deviceIds := if deviceId ∈ w.deviceIds then w.deviceIds else w.deviceIds ++ [deviceId] }

/-- `windows.get(key)`, set if it is missing, with the device added. -/
def addDevice (windows : List (List Char × Window)) (deviceId : Nat) (cfg : Template) : List (List Char × Window) :=
  if windows.any fun e => e.1 == windowKey cfg then
    windows.map fun e => if e.1 = windowKey cfg then (e.1, e.2.add deviceId) else e
  else windows ++ [(windowKey cfg, { toTemplate := cfg, deviceIds := [deviceId] })]

def windowsOf (plan : List (Nat × List Template)) : List (List Char × Window) :=
  plan.foldl (fun windows p => p.2.foldl (fun windows cfg => addDevice windows p.1 cfg) windows) []

/-! ## The aggregates -/

/-- A row of an aggregate. -/
structure HitRow where
  deviceId : Nat
  ip : Inet
  tenantId : Nat
  failureCount : Nat
deriving DecidableEq

/-- `ORDER BY device_id, ip`. -/
def deviceThenIp (a b : HitRow) : Prop := a.deviceId < b.deviceId ∨ a.deviceId = b.deviceId ∧ inetLe a.ip b.ip = true

instance : DecidableRel deviceThenIp := fun _ _ => inferInstanceAs (Decidable (_ ∨ _))

/-- The order of a result; that of the tenants of one address is the database's. -/
structure RowOrder where
  sort : List HitRow → List HitRow
  perm : ∀ rows, (sort rows).Perm rows
  ordered : ∀ rows, (sort rows).Pairwise deviceThenIp

theorem inetLe_trans {a b c : Inet} (hab : inetLe a b = true) (hbc : inetLe b c = true) : inetLe a c = true := by
  unfold inetLe at *
  cases ha : a.family <;> cases hb : b.family <;> cases hc : c.family <;> simp_all <;> omega

theorem inetLe_total (a b : Inet) : inetLe a b = true ∨ inetLe b a = true := by
  unfold inetLe
  cases a.family <;> cases b.family <;> simp
  all_goals omega

instance : IsTrans HitRow deviceThenIp where
  trans a b c hab hbc := by
    rcases hab with hab | ⟨hab, hip⟩
    · rcases hbc with hbc | ⟨hbc, -⟩
      · exact .inl (by omega)
      · exact .inl (by omega)
    · rcases hbc with hbc | ⟨hbc, hip'⟩
      · exact .inl (by omega)
      · exact .inr ⟨by omega, inetLe_trans hip hip'⟩

instance : Std.Total deviceThenIp where
  total a b := by
    rcases Nat.lt_trichotomy a.deviceId b.deviceId with h | h | h
    · exact .inl (.inl h)
    · rcases inetLe_total a.ip b.ip with hip | hip
      · exact .inl (.inr ⟨h, hip⟩)
      · exact .inr (.inr ⟨h.symm, hip⟩)
    · exact .inr (.inl h)

/-- The order that leaves the tenants as they come. -/
def rowOrder : RowOrder where
  sort rows := rows.insertionSort deviceThenIp
  perm rows := List.perm_insertionSort deviceThenIp rows
  ordered rows := List.pairwise_insertionSort deviceThenIp rows

/-- The failures that the aggregate of a window selects. -/
def isSelected (bans : Table BanRow.id) (now : Int) (w : Window) (ev : IpEvent) : Bool :=
  w.deviceIds.contains ev.deviceId && ev.service == w.serviceType && ev.eventType == .authFailure &&
    !ev.trackOnly && decide (now - w.windowSeconds * 1000 ≤ ev.timestamp) &&
    (watermark bans ev.ip).all fun at' => at' < ev.timestamp

/-- The addresses over the threshold, by device and tenant. -/
def aggregate (order : RowOrder) (db : Db) (now : Int) (w : Window) : List HitRow :=
  let selected := db.events.filter (isSelected db.bans now w)
  let groups := (distinct (selected.map fun ev => (ev.deviceId, ev.ip, ev.tenantId))).map fun k =>
    (⟨k.1, k.2.1, k.2.2, (selected.filter fun ev =>
      ev.deviceId == k.1 && ev.ip == k.2.1 && ev.tenantId == k.2.2).length⟩ : HitRow)
  order.sort (groups.filter fun g => decide (w.threshold ≤ g.failureCount))

/-- `${key}|${deviceId}`. -/
def hitKey (key : List Char) (deviceId : Nat) : List Char := key ++ '|' :: Nat.toDigits 10 deviceId

/-- The rows of all windows, by window and device. -/
def joinedHits (order : RowOrder) (db : Db) (now : Int) (windows : List (List Char × Window)) :
    List Char → Option (List HitRow) :=
  collect (fun r => hitKey r.1 r.2.deviceId) (·.2)
    (windows.flatMap fun e => (aggregate order db now e.2).map fun r => (e.1, r))

/-- The candidates in evaluation order, device then template. -/
def batchCandidates (order : RowOrder) (db : Db) (now : Int) (plan : List (Nat × List Template)) :
    List AutoBanCandidate :=
  let hits := joinedHits order db now (windowsOf plan)
  plan.flatMap fun p => p.2.flatMap fun cfg => ((hits (hitKey (windowKey cfg) p.1)).getD []).map fun r =>
    ⟨String.ofList r.ip.text, r.tenantId, cfg.serviceType, r.failureCount⟩

/-- One cycle of the engine. -/
def evaluateThresholds (coll : Collation) (order : RowOrder) (env : SafetyEnv) (policy : BanPolicy) (now : Int)
    (db : EngineDb) : Db :=
  createAutoBans env policy now (batchCandidates order db.toDb now (enginePlan coll db)) db.toDb

/-! ## Keys -/

section keys
variable {cfg cfg' : Template} {k k' : List Char} {d d' : Nat}

theorem windowKey_injective (h : windowKey cfg = windowKey cfg') : cfg = cfg' := by
  have hdigits (n : Nat) : nul ∉ Nat.toDigits 10 n := not_mem_toDigits (by omega) (by omega) n (by decide)
  have hnumber {m n : Nat} (h : Nat.toDigits 10 m = Nat.toDigits 10 n) : m = n := by
    have hvalue := congrArg (ofDigits 10) h
    rwa [ofDigits_toDigits (by omega) (by omega), ofDigits_toDigits (by omega) (by omega)] at hvalue
  obtain ⟨service, window, threshold⟩ := cfg
  obtain ⟨service', window', threshold'⟩ := cfg'
  unfold windowKey at h
  rw [← List.cons_append, ← List.append_assoc, ← List.cons_append, ← List.append_assoc] at h
  obtain ⟨hleft, hthreshold⟩ := append_cons_inj_right (hdigits threshold) (hdigits threshold') h
  obtain ⟨hservice, hwindow⟩ := append_cons_inj_right (hdigits window) (hdigits window') hleft
  obtain rfl : service = service' := String.toList_inj.mp hservice
  rw [hnumber hwindow, hnumber hthreshold]

theorem hitKey_injective (h : hitKey k d = hitKey k' d') : k = k' ∧ d = d' := by
  have hdigits (n : Nat) : '|' ∉ Nat.toDigits 10 n := not_mem_toDigits (by omega) (by omega) n (by decide)
  obtain ⟨hkey, hdevice⟩ := append_cons_inj_right (hdigits d) (hdigits d') h
  have hvalue := congrArg (ofDigits 10) hdevice
  rw [ofDigits_toDigits (by omega) (by omega), ofDigits_toDigits (by omega) (by omega)] at hvalue
  exact ⟨hkey, hvalue⟩

end keys

/-! ## Windows of a plan -/

/-- The devices and templates of a plan, in evaluation order. -/
def pairsOf (plan : List (Nat × List Template)) : List (Nat × Template) := plan.flatMap fun p => p.2.map fun cfg => (p.1, cfg)

/-- The windows hold what was added. -/
structure WindowsOf (windows : List (List Char × Window)) (pairs : List (Nat × Template)) : Prop where
  key : ∀ e ∈ windows, e.1 = windowKey e.2.toTemplate
  mem : ∀ deviceId cfg, (∃ e ∈ windows, e.2.toTemplate = cfg ∧ deviceId ∈ e.2.deviceIds) ↔ (deviceId, cfg) ∈ pairs
  nodup : (windows.map (·.1)).Nodup

section windows
variable {windows : List (List Char × Window)} {pairs : List (Nat × Template)} {deviceId : Nat} {cfg : Template}

theorem Window.mem_add {w : Window} {d : Nat} : d ∈ (w.add deviceId).deviceIds ↔ d ∈ w.deviceIds ∨ d = deviceId := by
  rw [add]
  dsimp only
  split
  · rename_i hmem
    refine ⟨.inl, fun hd => hd.elim id fun hd => ?_⟩
    rwa [hd]
  · rw [List.mem_append, List.mem_singleton]

theorem windowsOf_addDevice (deviceId : Nat) (cfg : Template) (h : WindowsOf windows pairs) :
    WindowsOf (addDevice windows deviceId cfg) (pairs ++ [(deviceId, cfg)]) := by
  unfold addDevice
  split
  · rename_i hany
    obtain ⟨e₀, he₀, hkey₀⟩ := List.any_eq_true.mp hany
    rw [beq_iff_eq, h.key e₀ he₀] at hkey₀
    have hcfg₀ : e₀.2.toTemplate = cfg := windowKey_injective hkey₀
    obtain ⟨f, hf⟩ : ∃ f : List Char × Window → List Char × Window,
        f = fun e => if e.1 = windowKey cfg then (e.1, e.2.add deviceId) else e := ⟨_, rfl⟩
    rw [← hf]
    have hsame (e) : (f e).1 = e.1 ∧ (f e).2.toTemplate = e.2.toTemplate := by
      rw [hf]
      dsimp only
      split <;> exact ⟨rfl, rfl⟩
    have hids (e) (he : e ∈ windows) (d : Nat) : d ∈ (f e).2.deviceIds ↔
        d ∈ e.2.deviceIds ∨ d = deviceId ∧ e.2.toTemplate = cfg := by
      have hkey : e.1 = windowKey cfg ↔ e.2.toTemplate = cfg := by
        rw [h.key e he]
        exact ⟨windowKey_injective, congrArg windowKey⟩
      rw [hf]
      dsimp only
      by_cases hcfg : e.2.toTemplate = cfg
      · rw [if_pos (hkey.mpr hcfg), Window.mem_add, and_iff_left hcfg]
      · rw [if_neg (mt hkey.mp hcfg)]
        exact ⟨.inl, fun hd => hd.elim id fun hd => absurd hd.2 hcfg⟩
    constructor
    · rintro _ hmem
      obtain ⟨e, he, rfl⟩ := List.mem_map.mp hmem
      rw [(hsame e).1, (hsame e).2]
      exact h.key e he
    · intro d cfg'
      rw [List.mem_append, List.mem_singleton, Prod.mk.injEq, ← h.mem]
      constructor
      · rintro ⟨_, hmem, hcfg', hd⟩
        obtain ⟨e, he, rfl⟩ := List.mem_map.mp hmem
        rw [(hsame e).2] at hcfg'
        rcases (hids e he d).mp hd with hd | ⟨hd, hcfg⟩
        · exact .inl ⟨e, he, hcfg', hd⟩
        · exact .inr ⟨hd, hcfg'.symm.trans hcfg⟩
      · rintro (⟨e, he, hcfg', hd⟩ | ⟨rfl, rfl⟩)
        · exact ⟨f e, List.mem_map_of_mem he, (hsame e).2.trans hcfg', (hids e he d).mpr (.inl hd)⟩
        · exact ⟨f e₀, List.mem_map_of_mem he₀, (hsame e₀).2.trans hcfg₀, (hids e₀ he₀ d).mpr (.inr ⟨rfl, hcfg₀⟩)⟩
    · have hkeys : (windows.map f).map (·.1) = windows.map (·.1) := by
        rw [List.map_map]
        exact List.map_congr_left fun e _ => (hsame e).1
      rw [hkeys]
      exact h.nodup
  · rename_i hany
    have hnone : ∀ e ∈ windows, e.1 ≠ windowKey cfg := by
      intro e he hkey
      exact hany (List.any_eq_true.mpr ⟨e, he, beq_iff_eq.mpr hkey⟩)
    constructor
    · intro e he
      rcases List.mem_append.mp he with he | he
      · exact h.key e he
      · rw [List.mem_singleton.mp he]
    · intro d cfg'
      rw [List.mem_append, List.mem_singleton, Prod.mk.injEq, ← h.mem]
      simp only [List.mem_append, List.mem_singleton]
      constructor
      · rintro ⟨e, he | rfl, hcfg', hd⟩
        · exact .inl ⟨e, he, hcfg', hd⟩
        · exact .inr ⟨List.mem_singleton.mp hd, hcfg'.symm⟩
      · rintro (⟨e, he, hcfg', hd⟩ | ⟨rfl, rfl⟩)
        · exact ⟨e, .inl he, hcfg', hd⟩
        · exact ⟨_, .inr rfl, rfl, List.mem_singleton_self _⟩
    · rw [List.map_append, List.map_singleton, List.nodup_append]
      refine ⟨h.nodup, List.nodup_singleton _, ?_⟩
      rintro k hk k' hk' rfl
      obtain ⟨e, he, rfl⟩ := List.mem_map.mp hk
      exact hnone e he (List.mem_singleton.mp hk')

theorem windowsOf_plan (plan : List (Nat × List Template)) : WindowsOf (windowsOf plan) (pairsOf plan) := by
  have htemplates (deviceId : Nat) (cfgs : List Template) : ∀ {windows pairs}, WindowsOf windows pairs →
      WindowsOf (cfgs.foldl (fun windows cfg => addDevice windows deviceId cfg) windows)
        (pairs ++ cfgs.map fun cfg => (deviceId, cfg)) := by
    induction cfgs with
    | nil =>
      intro windows pairs h
      rwa [List.map_nil, List.append_nil]
    | cons cfg cfgs ih =>
      intro windows pairs h
      have hrest := ih (windowsOf_addDevice deviceId cfg h)
      rwa [List.append_assoc, List.singleton_append] at hrest
  have hplan : ∀ windows pairs, WindowsOf windows pairs → WindowsOf
      (plan.foldl (fun windows p => p.2.foldl (fun windows cfg => addDevice windows p.1 cfg) windows) windows)
        (pairs ++ pairsOf plan) := by
    induction plan with
    | nil =>
      intro windows pairs h
      rwa [pairsOf, List.flatMap_nil, List.append_nil]
    | cons p plan ih =>
      intro windows pairs h
      have hrest := ih _ _ (htemplates p.1 p.2 h)
      rwa [List.append_assoc] at hrest
  refine hplan [] [] ⟨fun e he => absurd he List.not_mem_nil, ?_, List.nodup_nil⟩
  intro d cfg
  refine iff_of_false ?_ List.not_mem_nil
  rintro ⟨e, he, -⟩
  exact List.not_mem_nil he

end windows

/-! ## Rows of a device -/

/-- The failures of an address under one tenant that a template counts for a device. -/
def countedFor (db : Db) (now : Int) (deviceId : Nat) (cfg : Template) (ip : Inet) (tenantId : Nat) : List IpEvent :=
  db.events.filter fun ev => isCounted db.bans now deviceId cfg ev && (ev.ip == ip && ev.tenantId == tenantId)

section rows
variable {order : RowOrder} {db : Db} {now : Int} {deviceId tenantId n : Nat} {cfg : Template} {ip : Inet} {w : Window}
  {r : HitRow} {plan : List (Nat × List Template)}

theorem countedFor_pos : 0 < (countedFor db now deviceId cfg ip tenantId).length ↔ ∃ ev ∈ db.events,
    isCounted db.bans now deviceId cfg ev = true ∧ ev.ip = ip ∧ ev.tenantId = tenantId := by
  rw [List.length_pos_iff_exists_mem]
  simp only [countedFor, List.mem_filter, Bool.and_eq_true, beq_iff_eq]

theorem mem_hits : (ip, tenantId, n) ∈ hits db now deviceId cfg ↔
    n = (countedFor db now deviceId cfg ip tenantId).length ∧ 0 < n ∧ cfg.threshold ≤ n := by
  have hcount (ip : Inet) (tenantId : Nat) : ((db.events.filter (isCounted db.bans now deviceId cfg)).filter fun ev =>
      ev.ip == ip && ev.tenantId == tenantId) = countedFor db now deviceId cfg ip tenantId := by
    rw [List.filter_filter, countedFor]
    exact List.filter_congr fun ev _ => Bool.and_comm _ _
  simp only [hits, List.mem_mergeSort, List.mem_filter, List.mem_map, mem_distinct, decide_eq_true_eq, Prod.mk.injEq,
    hcount]
  constructor
  · rintro ⟨⟨k, ⟨ev, ⟨hev, hcounted⟩, rfl⟩, rfl, rfl, rfl⟩, hthreshold⟩
    exact ⟨rfl, countedFor_pos.mpr ⟨ev, hev, hcounted, rfl, rfl⟩, hthreshold⟩
  · rintro ⟨rfl, hpos, hthreshold⟩
    obtain ⟨ev, hev, hcounted, rfl, rfl⟩ := countedFor_pos.mp hpos
    exact ⟨⟨(ev.ip, ev.tenantId), ⟨ev, ⟨hev, hcounted⟩, rfl⟩, rfl, rfl, rfl⟩, hthreshold⟩

theorem isSelected_iff {ev : IpEvent} : isSelected db.bans now w ev = true ↔
    ev.deviceId ∈ w.deviceIds ∧ isCounted db.bans now ev.deviceId w.toTemplate ev = true := by
  rw [isSelected, isCounted, beq_self_eq_true]
  simp only [Bool.and_eq_true, List.contains_iff_mem, and_assoc, true_and]

theorem mem_aggregate : r ∈ aggregate order db now w ↔
    r.deviceId ∈ w.deviceIds ∧ (r.ip, r.tenantId, r.failureCount) ∈ hits db now r.deviceId w.toTemplate := by
  obtain ⟨deviceId, ip, tenantId, n⟩ := r
  have hcount (deviceId : Nat) (ip : Inet) (tenantId : Nat) (hd : deviceId ∈ w.deviceIds) :
      ((db.events.filter (isSelected db.bans now w)).filter fun ev =>
        ev.deviceId == deviceId && ev.ip == ip && ev.tenantId == tenantId) =
          countedFor db now deviceId w.toTemplate ip tenantId := by
    rw [List.filter_filter, countedFor]
    refine List.filter_congr fun ev _ => ?_
    rw [Bool.eq_iff_iff]
    simp only [Bool.and_eq_true, beq_iff_eq, isSelected_iff]
    constructor
    · rintro ⟨⟨⟨rfl, hip⟩, htenant⟩, -, hcounted⟩
      exact ⟨hcounted, hip, htenant⟩
    · rintro ⟨hcounted, hip, htenant⟩
      obtain rfl : ev.deviceId = deviceId := by
        simp only [isCounted, Bool.and_eq_true, beq_iff_eq] at hcounted
        exact hcounted.1.1.1.1.1
      exact ⟨⟨⟨rfl, hip⟩, htenant⟩, hd, hcounted⟩
  rw [mem_hits, aggregate, (order.perm _).mem_iff]
  simp only [List.mem_filter, List.mem_map, mem_distinct, decide_eq_true_eq, HitRow.mk.injEq, isSelected_iff]
  constructor
  · rintro ⟨⟨⟨deviceId', ip', tenantId'⟩, ⟨ev, ⟨hev, hd, hcounted⟩, hkey⟩, rfl, rfl, rfl, rfl⟩, hthreshold⟩
    obtain ⟨rfl, hip⟩ := Prod.mk.inj hkey
    obtain ⟨hip, htenant⟩ := Prod.mk.inj hip
    rw [hcount _ _ _ hd] at hthreshold ⊢
    exact ⟨hd, rfl, countedFor_pos.mpr ⟨ev, hev, hcounted, hip, htenant⟩, hthreshold⟩
  · rintro ⟨hd, rfl, hpos, hthreshold⟩
    obtain ⟨ev, hev, hcounted, hip, htenant⟩ := countedFor_pos.mp hpos
    have hdevice : ev.deviceId = deviceId := by
      simp only [isCounted, Bool.and_eq_true, beq_iff_eq] at hcounted
      exact hcounted.1.1.1.1.1
    refine ⟨⟨(deviceId, ip, tenantId), ⟨ev, ⟨hev, ?_⟩, ?_⟩, rfl, rfl, rfl, ?_⟩, hthreshold⟩
    · rw [hdevice]
      exact ⟨hd, hcounted⟩
    · rw [hdevice, hip, htenant]
    · rw [hcount _ _ _ hd]

/-- A device and a template get the rows of their own aggregate. -/
theorem mem_joined_iff (hmem : (deviceId, cfg) ∈ pairsOf plan) :
    r ∈ (joinedHits order db now (windowsOf plan) (hitKey (windowKey cfg) deviceId)).getD [] ↔
      r.deviceId = deviceId ∧ (r.ip, r.tenantId, r.failureCount) ∈ hits db now deviceId cfg := by
  have hwindows := windowsOf_plan plan
  rw [joinedHits, getD_collect, mem_valuesOf]
  constructor
  · rintro ⟨⟨key, r'⟩, hr', hkey, rfl⟩
    obtain ⟨e, he, hr'⟩ := List.mem_flatMap.mp hr'
    obtain ⟨r', hrow, heq⟩ := List.mem_map.mp hr'
    obtain ⟨rfl, rfl⟩ := Prod.mk.inj heq
    obtain ⟨hwindow, hdevice⟩ := hitKey_injective hkey
    rw [hwindows.key e he] at hwindow
    have hcfg : e.2.toTemplate = cfg := windowKey_injective hwindow
    rw [mem_aggregate, hcfg, hdevice] at hrow
    exact ⟨hdevice, hrow.2⟩
  · rintro ⟨rfl, hhits⟩
    obtain ⟨e, he, rfl, hd⟩ := (hwindows.mem r.deviceId cfg).mpr hmem
    refine ⟨(e.1, r), List.mem_flatMap.mpr ⟨e, he, List.mem_map_of_mem (mem_aggregate.mpr ⟨hd, hhits⟩)⟩, ?_, rfl⟩
    rw [hwindows.key e he]

end rows

/-! ## Device by device -/

/-- The device is evaluate-only, itself or through a group above it. -/
def isDryRun (db : DryRunDb) (d : Device) : Bool :=
  db.deviceEvaluateOnly d.id || db.groups.rows.any fun g => db.groupEvaluateOnly g.id &&
    db.closure.any fun c => c.ancestorId == g.id && d.groupId == some c.descendantId

/-- The devices that may ban. -/
def banningDevices (db : EngineDb) : List Device :=
  db.devices.rows.filter fun d => db.approved d.id && !isDryRun db.toDryRunDb d && autoBanEnabled db d

/-- The groups above a device, closest first. -/
def groupIdsOf (db : EngineDb) (d : Device) : List Nat :=
  match d.groupId with
  | some g => ancestorGroupIds db.templateDb g
  | none => []

/-- The enabled templates of a device in ban mode. -/
def banTemplatesOf (coll : Collation) (db : EngineDb) (d : Device) : List Template :=
  banTemplates ((getResolvedForDevice coll db.templateDb d.id d.groupId).map ResolvedEntry.toResolvedServiceConfig)

/-- Devices and templates, each device by itself. -/
def devicePlan (coll : Collation) (db : EngineDb) : List (Nat × List Template) :=
  (banningDevices db).map fun d => (d.id, banTemplatesOf coll db d)

section plan
variable {coll : Collation} {db : EngineDb} {d : Device} {devices : List Device} {k : Nat}

theorem ancestry_eq (rows : List Closure) :
    valuesOf (·.descendantId) (·.ancestorId) (orderClosure rows) k =
      ((rows.filter fun c => c.descendantId = k).insertionSort fun a b => a.depth ≤ b.depth).map (·.ancestorId) := by
  have htrans : IsTrans Closure fun a b =>
      a.descendantId < b.descendantId ∨ a.descendantId = b.descendantId ∧ a.depth ≤ b.depth :=
    ⟨fun _ _ _ h h' => by omega⟩
  have htotal : Std.Total fun a b : Closure =>
      a.descendantId < b.descendantId ∨ a.descendantId = b.descendantId ∧ a.depth ≤ b.depth :=
    ⟨fun _ _ => by omega⟩
  rw [valuesOf, orderClosure, filter_insertionSort]
  congr 1
  have hsort := List.map_insertionSort (fun a b : Closure =>
      a.descendantId < b.descendantId ∨ a.descendantId = b.descendantId ∧ a.depth ≤ b.depth)
    (fun a b => a.depth ≤ b.depth) id (rows.filter fun c => decide (c.descendantId = k)) ?_
  · rwa [List.map_id, List.map_id] at hsort
  · intro a ha b hb
    have ha : a.descendantId = k := of_decide_eq_true (List.mem_filter.mp ha).2
    have hb : b.descendantId = k := of_decide_eq_true (List.mem_filter.mp hb).2
    simp only [id]
    omega

theorem engineGroupIds_eq (hd : d ∈ devices) :
    engineGroupIds (engineAncestry db.toDryRunDb devices) d = groupIdsOf db d := by
  rw [engineGroupIds, groupIdsOf]
  cases hgroup : d.groupId with
  | none => rfl
  | some g =>
    dsimp only
    have hdirect : g ∈ distinct (devices.filterMap (·.groupId)) :=
      mem_distinct.mpr (List.mem_filterMap.mpr ⟨d, hd, hgroup⟩)
    split
    · rename_i hzero
      have hnone : db.closure.filter (fun c => decide (c.descendantId = g)) = [] := by
        rw [List.filter_eq_nil_iff]
        intro c hc
        have hpos := db.descendant_pos c hc
        rw [decide_eq_true_eq]
        omega
      rw [ancestorGroupIds, EngineDb.templateDb, hnone]
      rfl
    · rw [engineAncestry, if_neg (List.ne_nil_of_mem hdirect), getD_collect, ancestry_eq, List.filter_filter,
        ancestorGroupIds, EngineDb.templateDb]
      congr 2
      refine List.filter_congr fun c _ => ?_
      rw [← Bool.decide_and]
      refine decide_eq_decide.mpr ⟨fun h => h.1, fun h => ⟨h, ?_⟩⟩
      rwa [h]

theorem any_engineGroupIds_eq (hd : d ∈ devices) :
    (db.deviceEvaluateOnly d.id || (engineGroupIds (engineAncestry db.toDryRunDb devices) d).any
      fun g => decide (g ∈ evalOnlyGroups db.toDryRunDb)) = isDryRun db.toDryRunDb d := by
  rw [isDryRun]
  congr 1
  rw [Bool.eq_iff_iff, List.any_eq_true]
  simp only [decide_eq_true_eq, mem_evalOnlyGroups, mem_engineGroupIds hd, List.any_eq_true,
    Bool.and_eq_true, beq_iff_eq]
  constructor
  · rintro ⟨a, ⟨k, hk, -, c, hc, hanc, hdesc⟩, g, hg, hflag, hid⟩
    exact ⟨g, hg, hflag, c, hc, hanc.trans hid.symm, hk.trans (congrArg some hdesc.symm)⟩
  · rintro ⟨g, hg, hflag, c, hc, hanc, hk⟩
    have hpos := db.descendant_pos c hc
    exact ⟨g.id, ⟨c.descendantId, hk, by omega, c, hc, hanc, rfl⟩, g, hg, hflag, rfl⟩

theorem observed_eq : observed db.toDryRunDb = (db.devices.rows.filter fun d =>
    db.approved d.id && !isDryRun db.toDryRunDb d).map fun d => (d, groupIdsOf db d) := by
  have hdevices : (db.devices.rows.filter fun d => db.approved d.id && !isDryRun db.toDryRunDb d) =
      (db.devices.rows.filter fun d => db.approved d.id).filter fun d => !isDryRun db.toDryRunDb d := by
    rw [List.filter_filter]
    exact List.filter_congr fun d _ => Bool.and_comm _ _
  rw [observed, List.filter_map, hdevices]
  have hkeep : ∀ d ∈ db.devices.rows.filter fun d => db.approved d.id, (!db.deviceEvaluateOnly d.id &&
      !(engineGroupIds (engineAncestry db.toDryRunDb (db.devices.rows.filter fun d => db.approved d.id)) d).any
        fun g => decide (g ∈ evalOnlyGroups db.toDryRunDb)) = !isDryRun db.toDryRunDb d := by
    intro d hd
    rw [← any_engineGroupIds_eq hd, Bool.not_or]
  rw [← List.filter_congr hkeep]
  refine List.map_congr_left fun d hd => ?_
  rw [engineGroupIds_eq (List.mem_of_mem_filter hd)]

theorem mem_autoBanDisabledIds {refs : List Device} (hrefs : ∀ d' ∈ refs, d' ∈ db.devices.rows) (hd : d ∈ refs) :
    (autoBanDisabledIds db refs).contains d.id = !autoBanEnabled db d := by
  rw [Bool.eq_iff_iff, List.contains_iff_mem, autoBanDisabledIds, List.mem_map]
  constructor
  · rintro ⟨d', hd', hid⟩
    obtain ⟨hmem, hoff⟩ := List.mem_filter.mp hd'
    obtain rfl := Table.eq_of_key (hrefs d' hmem) (hrefs d hd) hid
    exact hoff
  · exact fun hoff => ⟨d, List.mem_filter.mpr ⟨hd, hoff⟩, rfl⟩

theorem evaluated_eq : evaluated db = (banningDevices db).map fun d => (d, groupIdsOf db d) := by
  obtain ⟨devices, hdevices⟩ : ∃ devices, devices = db.devices.rows.filter fun d =>
    db.approved d.id && !isDryRun db.toDryRunDb d := ⟨_, rfl⟩
  have hbanning : banningDevices db = devices.filter fun d => autoBanEnabled db d := by
    rw [hdevices, List.filter_filter, banningDevices]
    exact List.filter_congr fun d _ => Bool.and_comm _ _
  have hrows : ∀ d ∈ devices, d ∈ db.devices.rows := by
    intro d hd
    rw [hdevices] at hd
    exact List.mem_of_mem_filter hd
  have hfst : (devices.map fun d => (d, groupIdsOf db d)).map (·.1) = devices := by
    rw [List.map_map]
    exact List.map_id devices
  rw [evaluated, observed_eq, ← hdevices, List.filter_map, hfst, hbanning]
  congr 1
  refine List.filter_congr fun d hd => ?_
  rw [Function.comp_apply, mem_autoBanDisabledIds hrows hd, Bool.not_not]

/-- The batch gives each device the templates that it has by itself. -/
theorem enginePlan_eq : enginePlan coll db = devicePlan coll db := by
  have hids : (((banningDevices db).map fun d => (⟨d.id, groupIdsOf db d⟩ : AgentTemplateScope)).map
      (·.deviceId)).Nodup := by
    rw [List.map_map]
    exact db.devices.nodup.sublist (List.filter_sublist.map _)
  rw [enginePlan, evaluated_eq]
  simp only [List.map_map, Function.comp_def]
  refine List.map_congr_left fun d hd => ?_
  have hscope : (⟨d.id, groupIdsOf db d⟩ : AgentTemplateScope) ∈
      (banningDevices db).map fun d => (⟨d.id, groupIdsOf db d⟩ : AgentTemplateScope) := List.mem_map_of_mem hd
  have hbatch : resolveForAgents coll db.templateDb _ d.id = _ := resolveForAgents_eq hids hscope
  rw [hbatch, Option.getD_some, ← resolveForAgent_eq coll db.templateDb ⟨d.id, groupIdsOf db d⟩]
  rfl

end plan

end Obliguard.Server

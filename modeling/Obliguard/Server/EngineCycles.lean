import Obliguard.Server.AutoBans
import Obliguard.Server.EvaluateThresholds
import Obliguard.Server.LiftFinality
import Obliguard.Server.ServiceOptIn

/-!
# What one cycle of the BanEngine bans

`MeetsSpec` says for each address by itself when a cycle bans it, for which device and template, and which bans the
cycle ends: the failures of the address are those of all its spellings, later than the latest Lift of the address in
any of them. The engine counts the stored spellings of an address apart, an IPv4-mapped one beside the IPv4 one, and
compares each with the Lifts stored in the same spelling (`exists_new_address_iff`). The cycle meets the specification
exactly when that makes no difference to the first device and template that reach their threshold
(`meetsSpec_iff`), as when no spelling but one is stored (`spellingsAgree_of_plain`).
-/

namespace Obliguard.Server

open Bans IpValidation Text AddrText HighBits

/-! ## The specification -/

/-- The network of one address that is no IPv4-mapped spelling of another. -/
def IsAddress (x : Net) : Prop := x.IsHost ∧ ¬x.IsMapped

/-- What a value of type `inet` names, an IPv4-mapped address being the IPv4 address it maps. -/
def inetTarget (i : Inet) : Option Net := targetOf i.host i.masklen i.masklen_le

/-- The latest global deactivation of an address that is not a withdrawal by its source, in any spelling. -/
def liftWatermark (bans : Table BanRow.id) (x : Net) : Option Int :=
  ((bans.rows.filter fun lb => decide (inetTarget lb.target.ip = some x) && lb.scope == .global &&
    lb.liftReason != some .remoteSync).filterMap (·.liftedAt)).max?

/-- The failures of an address on the service and the device under one tenant, in the window and after the latest
Lift. -/
def failuresOf (db : Db) (now : Int) (x : Net) (p : Nat × Template) (tenantId : Nat) : List IpEvent :=
  db.events.filter fun ev => ev.deviceId == p.1 && ev.service == p.2.serviceType && ev.eventType == .authFailure &&
    !ev.trackOnly && decide (now - p.2.windowSeconds * 1000 ≤ ev.timestamp) && decide (inetTarget ev.ip = some x) &&
    ev.tenantId == tenantId && (liftWatermark db.bans x).all fun at' => at' < ev.timestamp

/-- The failures of the address reach the threshold of a template for a device. -/
def Reaches (db : Db) (now : Int) (x : Net) (p : Nat × Template) : Prop :=
  ∃ tenantId, p.2.threshold ≤ (failuresOf db now x p tenantId).length

/-- The devices that may ban with their templates, in evaluation order. -/
def evaluationOrder (coll : Collation) (db : EngineDb) : List (Nat × Template) := pairsOf (devicePlan coll db)

/-- The address passes the ban-safety check and is neither banned nor whitelisted for all. -/
structure Bannable (env : SafetyEnv) (now : Int) (db : Db) (x : Net) : Prop where
  passes : Passes env x
  not_covered : ¬LiveCovered db.bans now x
  not_whitelisted : ¬GloballyWhitelisted db x

/-- The candidates of a device and a template. -/
def candidatesOf (order : RowOrder) (db : Db) (now : Int) (plan : List (Nat × List Template)) (p : Nat × Template) :
    List AutoBanCandidate :=
  ((joinedHits order db now (windowsOf plan) (hitKey (windowKey p.2) p.1)).getD []).map fun r =>
    ⟨String.ofList r.ip.text, r.tenantId, p.2.serviceType, r.failureCount⟩

/-- The row is the ban of a candidate of the device and the template, the first ones with a candidate of its
address. -/
def AttributedTo (order : RowOrder) (db : Db) (now : Int) (plan : List (Nat × List Template)) (r : BanRow)
    (p : Nat × Template) : Prop :=
  FirstWith (fun p => ∃ c ∈ candidatesOf order db now plan p, netOfText c.ip = some r.net) (pairsOf plan) p ∧
    ∃ c ∈ candidatesOf order db now plan p, ∃ t e, netOfText c.ip = some r.net ∧ r = autoRow c t e r.id

/-- What a cycle is for. -/
structure MeetsSpec (coll : Collation) (order : RowOrder) (env : SafetyEnv) (policy : BanPolicy) (now : Int)
    (db : EngineDb) : Prop where
  /-- An address is banned exactly when some device and template say so and nothing is in the way. -/
  banned : ∀ x, IsAddress x →
    ((∃ r, IsNew db.toDb (evaluateThresholds coll order env policy now db) r ∧ r.net = x) ↔
      (∃ p ∈ evaluationOrder coll db, Reaches db.toDb now x p) ∧ Bannable env now db.toDb x)
  /-- By one row, which is the ban of one address. -/
  unique : ∀ r r', IsNew db.toDb (evaluateThresholds coll order env policy now db) r →
    IsNew db.toDb (evaluateThresholds coll order env policy now db) r' → r.net = r'.net → r = r'
  address : ∀ r, IsNew db.toDb (evaluateThresholds coll order env policy now db) r →
    IsAddress r.net ∧ r.banType = .auto ∧ r.scope = .global ∧ r.isActive = true
  /-- For the first device and template that say so. -/
  attributed : ∀ r, IsNew db.toDb (evaluateThresholds coll order env policy now db) r → ∃ p,
    FirstWith (Reaches db.toDb now r.net) (evaluationOrder coll db) p ∧
      AttributedTo order db.toDb now (enginePlan coll db) r p
  /-- A ban that ends had expired. -/
  expired : ∀ b ∈ db.bans.rows, b ∈ (evaluateThresholds coll order env policy now db).bans.rows ∨
    b.isActive = true ∧ b.expired now = true ∧
      b.deactivated now .expiry ∈ (evaluateThresholds coll order env policy now db).bans.rows

/-! ## Spellings -/

/-- The failures stored under one spelling of the address, later than the Lifts stored under the same one, reach the
threshold. -/
def ReachesStored (db : Db) (now : Int) (x : Net) (p : Nat × Template) : Prop :=
  ∃ ip tenantId, inetTarget ip = some x ∧ 0 < (countedFor db now p.1 p.2 ip tenantId).length ∧
    p.2.threshold ≤ (countedFor db now p.1 p.2 ip tenantId).length

/-- The spellings of an address counted apart are as good as counted together: the first device and template that
reach their threshold are the same. -/
def SpellingsAgree (coll : Collation) (env : SafetyEnv) (now : Int) (db : EngineDb) : Prop :=
  ∀ x, IsAddress x → Bannable env now db.toDb x → ∀ p,
    FirstWith (Reaches db.toDb now x) (evaluationOrder coll db) p ↔
      FirstWith (ReachesStored db.toDb now x) (evaluationOrder coll db) p

section spellings
variable {coll : Collation} {env : SafetyEnv} {now : Int} {db : EngineDb} {x : Net} {i : Inet}

/-- The stored address is an IPv4-mapped one. -/
def IsMappedInet (i : Inet) : Prop := i.family = .v6 ∧ i.addr / 2 ^ 32 = 0xffff

theorem inetTarget_eq_iff (hx : IsAddress x) (hi : ¬IsMappedInet i) : inetTarget i = some x ↔ i = Inet.ofNet x := by
  have hneg : ¬(i.host.family = .v6 ∧ i.host.value / 2 ^ 32 = 0xffff) := hi
  have htarget : inetTarget i = some i.net := by
    unfold inetTarget targetOf
    rw [dif_neg hneg]
    rfl
  rw [htarget, Option.some_inj]
  constructor
  · rintro rfl
    have hlen : i.masklen = i.family.bits := hx.1
    refine Inet.ext rfl ?_ rfl
    show i.addr = clearLow (i.family.bits - i.masklen) i.addr
    rw [hlen, Nat.sub_self, clearLow_zero]
  · rintro rfl
    rw [Inet.net_ofNet]

/-- Where no event and no ban is stored under an IPv4-mapped address and no threshold is 0, no address is counted
apart. -/
theorem spellingsAgree_of_plain (hevents : ∀ ev ∈ db.events, ¬IsMappedInet ev.ip)
    (hbans : ∀ b ∈ db.bans.rows, ¬IsMappedInet b.target.ip)
    (hthreshold : ∀ p ∈ evaluationOrder coll db, 0 < p.2.threshold) : SpellingsAgree coll env now db := by
  intro x hx _ p
  have hwatermark : liftWatermark db.bans x = watermark db.bans (Inet.ofNet x) := by
    rw [liftWatermark, watermark]
    congr 2
    refine List.filter_congr fun b hb => ?_
    simp only [inetTarget_eq_iff hx (hbans b hb)]
    rfl
  have hfailures (q : Nat × Template) (tenantId : Nat) :
      failuresOf db.toDb now x q tenantId = countedFor db.toDb now q.1 q.2 (Inet.ofNet x) tenantId := by
    rw [failuresOf, countedFor]
    refine List.filter_congr fun ev hev => ?_
    rw [Bool.eq_iff_iff, isCounted, hwatermark]
    simp only [Bool.and_eq_true, decide_eq_true_eq, beq_iff_eq, inetTarget_eq_iff hx (hevents ev hev)]
    constructor
    · rintro ⟨⟨⟨h, hip⟩, htenant⟩, hlift⟩
      rw [hip]
      exact ⟨⟨h, hlift⟩, rfl, htenant⟩
    · rintro ⟨⟨h, hlift⟩, hip, htenant⟩
      rw [hip] at hlift
      exact ⟨⟨⟨h, hip⟩, htenant⟩, hlift⟩
  refine FirstWith.congr fun q hq => ?_
  have hpos := hthreshold q hq
  rw [Reaches, ReachesStored]
  simp only [hfailures]
  constructor
  · rintro ⟨tenantId, hreach⟩
    have hname : inetTarget (Inet.ofNet x) = some x := targetOf_first hx.2
    exact ⟨Inet.ofNet x, tenantId, hname, by omega, hreach⟩
  · rintro ⟨ip, tenantId, hip, hsome, hreach⟩
    obtain ⟨ev, hev, -, rfl, -⟩ := countedFor_pos.mp hsome
    rw [(inetTarget_eq_iff hx (hevents ev hev)).mp hip] at hreach
    exact ⟨tenantId, hreach⟩

end spellings

/-! ## Cycles -/

section cycle
variable {coll : Collation} {order : RowOrder} {env : SafetyEnv} {policy : BanPolicy} {now : Int} {db : EngineDb}
  {r : BanRow} {x : Net} {p : Nat × Template}

theorem batchCandidates_eq (plan : List (Nat × List Template)) : batchCandidates order db.toDb now plan =
    (pairsOf plan).flatMap (candidatesOf order db.toDb now plan) := by
  rw [batchCandidates, pairsOf, List.flatMap_assoc]
  congr 1
  funext p
  rw [List.flatMap_map]
  rfl

theorem exists_candidate_iff {plan : List (Nat × List Template)} (hp : p ∈ pairsOf plan) :
    (∃ c ∈ candidatesOf order db.toDb now plan p, netOfText c.ip = some x) ↔ ReachesStored db.toDb now x p := by
  have hname (i : Inet) : netOfText (String.ofList i.text) = inetTarget i := netOfText_text_inet i
  constructor
  · rintro ⟨c, hc, hx⟩
    obtain ⟨h, hh, rfl⟩ := List.mem_map.mp hc
    obtain ⟨-, hcount⟩ := (mem_joined_iff hp).mp hh
    obtain ⟨hn, hpos, hthreshold⟩ := mem_hits.mp hcount
    rw [hn] at hpos hthreshold
    exact ⟨h.ip, h.tenantId, (hname h.ip).symm.trans hx, hpos, hthreshold⟩
  · rintro ⟨ip, tenantId, hx, hpos, hthreshold⟩
    have hcount := mem_hits.mpr ⟨rfl, hpos, hthreshold⟩
    refine ⟨_, List.mem_map_of_mem ((mem_joined_iff (r := ⟨p.1, ip, tenantId, _⟩) hp).mpr ⟨rfl, hcount⟩), ?_⟩
    exact (hname ip).trans hx

/-- The addresses that a cycle bans. -/
theorem exists_new_address_iff :
    (∃ r, IsNew db.toDb (evaluateThresholds coll order env policy now db) r ∧ r.net = x) ↔
      (∃ p ∈ evaluationOrder coll db, ReachesStored db.toDb now x p) ∧ Bannable env now db.toDb x := by
  rw [evaluateThresholds, exists_new_iff, enginePlan_eq, batchCandidates_eq]
  have htargets : (∃ c ∈ (pairsOf (devicePlan coll db)).flatMap (candidatesOf order db.toDb now (devicePlan coll db)),
      Targets env x c) ↔ (∃ p ∈ evaluationOrder coll db, ReachesStored db.toDb now x p) ∧ Passes env x := by
    simp only [targets_iff, List.mem_flatMap]
    constructor
    · rintro ⟨c, ⟨p, hp, hc⟩, hx, hpasses⟩
      exact ⟨⟨p, hp, (exists_candidate_iff hp).mp ⟨c, hc, hx⟩⟩, hpasses⟩
    · rintro ⟨⟨p, hp, hreach⟩, hpasses⟩
      obtain ⟨c, hc, hx⟩ : ∃ c ∈ candidatesOf order db.toDb now (devicePlan coll db) p, netOfText c.ip = some x :=
        (exists_candidate_iff hp).mpr hreach
      exact ⟨c, ⟨p, hp, hc⟩, hx, hpasses⟩
  rw [htargets, and_assoc]
  exact and_congr_right fun _ => ⟨fun h => ⟨h.1, h.2.1, h.2.2⟩, fun h => ⟨h.1, h.2, h.3⟩⟩

theorem new_attributedTo (h : IsNew db.toDb (evaluateThresholds coll order env policy now db) r) : ∃ p,
    FirstWith (ReachesStored db.toDb now r.net) (evaluationOrder coll db) p ∧
      AttributedTo order db.toDb now (enginePlan coll db) r p := by
  have hbannable := (exists_new_address_iff.mp ⟨r, h, rfl⟩).2
  rw [evaluateThresholds] at h
  obtain ⟨c, t, e, hfirst, hcheck, hr⟩ := new_first h
  have hnames (c : AutoBanCandidate) : Targets env r.net c ↔ netOfText c.ip = some r.net := by
    rw [targets_iff, and_iff_left hbannable.passes]
  rw [batchCandidates_eq] at hfirst
  obtain ⟨p, hp, hc⟩ := FirstWith.flatMap_iff.mp hfirst
  simp only [hnames] at hp
  refine ⟨p, ?_, hp, c, hc.mem, t, e, (hnames c).mp hc.prop, hr⟩
  rw [enginePlan_eq] at hp
  exact (FirstWith.congr fun q hq => exists_candidate_iff hq).mp hp

theorem new_isAddress (h : IsNew db.toDb (evaluateThresholds coll order env policy now db) r) :
    IsAddress r.net ∧ r.banType = .auto ∧ r.scope = .global ∧ r.isActive = true := by
  rw [evaluateThresholds] at h
  obtain ⟨c, t, e, hfirst, hcheck, hr⟩ := new_first h
  obtain ⟨-, -, -, hhost⟩ := checkBanTarget_net hcheck
  have hnet : r.net = t.net := by rw [hr, net_autoRow]
  rw [hnet]
  exact ⟨⟨hhost rfl, t.not_mapped⟩, by rw [hr]; rfl, by rw [hr]; rfl, by rw [hr]; rfl⟩

end cycle

/-- A cycle meets its specification exactly when the spellings of no address make a difference. -/
theorem meetsSpec_iff (coll : Collation) (order : RowOrder) (env : SafetyEnv) (policy : BanPolicy) (now : Int)
    (db : EngineDb) : MeetsSpec coll order env policy now db ↔ SpellingsAgree coll env now db := by
  constructor
  · intro hspec x hx hbannable p
    constructor
    · intro hp
      obtain ⟨r, hr, rfl⟩ := (hspec.banned x hx).mpr ⟨⟨p, hp.mem, hp.prop⟩, hbannable⟩
      obtain ⟨p', hp', hattributed, -⟩ := hspec.attributed r hr
      obtain rfl := hp.unique hp'
      rw [enginePlan_eq] at hattributed
      exact (FirstWith.congr fun q hq => exists_candidate_iff hq).mp hattributed
    · intro hp
      obtain ⟨r, hr, rfl⟩ : ∃ r, IsNew db.toDb (evaluateThresholds coll order env policy now db) r ∧ r.net = x :=
        exists_new_address_iff.mpr ⟨⟨p, hp.mem, hp.prop⟩, hbannable⟩
      obtain ⟨p', hp', hattributed, -⟩ := hspec.attributed r hr
      rw [enginePlan_eq] at hattributed
      have hstored := (FirstWith.congr fun q hq => exists_candidate_iff hq).mp hattributed
      obtain rfl := hp.unique hstored
      exact hp'
  · intro hagree
    constructor
    · intro x hx
      rw [exists_new_address_iff]
      refine and_congr_left fun hbannable => ?_
      rw [← FirstWith.exists_iff, ← FirstWith.exists_iff]
      exact exists_congr fun p => (hagree x hx hbannable p).symm
    · exact fun r r' hr hr' hnet => new_unique hr hr' hnet
    · exact fun r hr => new_isAddress hr
    · intro r hr
      obtain ⟨p, hp, hattributed⟩ := new_attributedTo hr
      have hbannable := (exists_new_address_iff.mp ⟨r, hr, rfl⟩).2
      exact ⟨p, (hagree r.net (new_isAddress hr).1 hbannable p).mpr hp, hattributed⟩
    · exact fun b hb => old_row hb

/-! ## A lifted address -/

/-- The IPv4-mapped spelling of the address. -/
def mappedAttacker : Inet := ⟨.v6, 0xffff * 2 ^ 32 + 0xc6336407, 128, by decide, by decide⟩

/-- Two failures of the address on device 7, stored under its IPv4-mapped spelling before the ban of the address was
lifted. -/
def liftedMappedDb : EngineDb :=
  let failure : IpEvent := ⟨7, 1, mappedAttacker, none, "ssh", .authFailure, false, 5, none⟩
  { Db.empty with
    bans := ⟨[firstAutoBan.deactivated 10 .lift], 2, by decide, Nat.two_pos, by decide⟩
    devices := ⟨[⟨7, 1, none, []⟩], 8, by decide, subnetDevices.seq_pos, by decide⟩
    events := [failure, failure]
    groupName := fun _ => ""
    groupEvaluateOnly := fun _ => false
    deviceEvaluateOnly := fun _ => false
    approved := fun _ => true
    tenantName := fun _ => none
    templates := ⟨[⟨1, "SSH", "ssh", true, none, none, 2, 600, true, .ban, none, none⟩], by decide⟩
    assignments := ⟨[], by decide⟩
    autoBanSetting := fun _ _ => none
    descendant_pos := nofun }

/-- The cycle bans the address again, for no failure later than the Lift. -/
theorem not_meetsSpec_lifted : ¬MeetsSpec plainCollation rowOrder plainEnv ⟨none, []⟩ 20 liftedMappedDb := by
  intro hspec
  have hbanned : ∃ r ∈ (evaluateThresholds plainCollation rowOrder plainEnv ⟨none, []⟩ 20 liftedMappedDb).bans.rows,
      liftedMappedDb.bans.seq ≤ r.id ∧ r.net = hostNet attacker := by
    decide +kernel
  obtain ⟨r, hr, hid, hnet⟩ := hbanned
  have hx : IsAddress (hostNet attacker) := ⟨rfl, by decide⟩
  obtain ⟨⟨p, hp, tenantId, hreach⟩, -⟩ := (hspec.banned _ hx).mp ⟨r, ⟨hr, hid⟩, hnet⟩
  have horder : evaluationOrder plainCollation liftedMappedDb = [(7, ⟨"ssh", 600, 2⟩)] := by decide +kernel
  rw [horder, List.mem_singleton] at hp
  have hnone : failuresOf liftedMappedDb.toDb 20 (hostNet attacker) p tenantId = [] := by
    have hlift : liftWatermark liftedMappedDb.bans (hostNet attacker) = some 10 := by decide +kernel
    refine List.filter_eq_nil_iff.mpr fun ev hev => ?_
    have htimestamp : ev.timestamp = 5 := by
      revert ev
      decide
    rw [hlift, Option.all_some, htimestamp]
    simp
  rw [hnone, hp] at hreach
  exact absurd hreach (by decide)

end Obliguard.Server

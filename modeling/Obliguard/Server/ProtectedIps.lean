import Mathlib.Data.Set.Basic
import Obliguard.Server.BanEngine

/-!
# The protected set

The entries of `server/src/utils/protectedIps.ts`, from the sources they are read from: the interfaces of
the server, `BAN_PROTECTED_IPS`, the configured origins, and the approved agents and routers. The network
of a parsed value is a set of addresses of one family (`networkOf`): the comparisons are exact on these
sets (`cidrOverlaps_iff`, `cidrContains_iff`), and from that `banTarget_safe` says what an accepted target
cannot hold.
-/

namespace Obliguard.Server

open Bans IpValidation Text Numeral HighBits

/-! ## Networks as sets -/

/-- The addresses of the network of a parsed value. -/
def networkOf (p : ParsedCidr) : Set Addr :=
  {a | a.family = p.family ∧ SameHigh (p.family.bits - p.plen) a.value (valueOf p)}

theorem mem_networkOf_parsedOf {n : Net} {a : Addr} : a ∈ networkOf (parsedOf n) ↔ a ∈ n := by
  rw [networkOf, Set.mem_ofPred_eq, valueOf_parsedOf]
  exact Iff.rfl

theorem net_le_of_subset {m n : Net} (h : ∀ a : Addr, a ∈ m → a ∈ n) : m ≤ n := by
  have hfirst := h m.first m.first_mem
  by_cases hl : n.len ≤ m.len
  · exact Net.le_of_mem_of_len m.first_mem hfirst hl
  · -- the two halves of `m` are not in one `n`
    exfalso
    have hf : m.family = n.family := hfirst.1
    have hlt : n.host < m.host := by
      have := n.len_le
      rw [Net.host, Net.host, hf]
      omega
    have hpow : 2 ^ n.host < 2 ^ m.host := Nat.pow_lt_pow_right (by omega) hlt
    obtain ⟨c, hc⟩ := m.masked
    change m.addr = 2 ^ m.host * c at hc
    have hbits : 2 ^ m.family.bits = 2 ^ m.host * 2 ^ m.len := by
      rw [← pow_add, Net.host, Nat.sub_add_cancel m.len_le]
    have hle : m.addr + 2 ^ m.host ≤ 2 ^ m.family.bits := by
      have haddr := m.addr_lt
      rw [hbits, hc] at haddr ⊢
      have hclt : c < 2 ^ m.len := Nat.lt_of_mul_lt_mul_left haddr
      calc 2 ^ m.host * c + 2 ^ m.host = 2 ^ m.host * (c + 1) := by ring
        _ ≤ 2 ^ m.host * 2 ^ m.len := Nat.mul_le_mul_left _ hclt
    let b : Addr := ⟨m.family, m.addr + 2 ^ n.host, by omega⟩
    have hb : b ∈ m := by
      refine ⟨rfl, ?_⟩
      show (m.addr + 2 ^ n.host) / 2 ^ m.host = m.addr / 2 ^ m.host
      rw [hc, Nat.mul_add_div (Nat.two_pow_pos _), Nat.mul_div_cancel_left _ (Nat.two_pow_pos _),
        Nat.div_eq_of_lt hpow, Nat.add_zero]
    have hsame : SameHigh n.host (m.addr + 2 ^ n.host) m.addr := (h b hb).2.trans hfirst.2.symm
    rw [SameHigh, Nat.add_div_right _ (Nat.two_pow_pos _)] at hsame
    omega

section comparisons
variable {a b : String} {p q : ParsedCidr}

/-- `cidrOverlaps` of parsed values is the intersection of their networks. -/
theorem cidrOverlaps_iff (hp : parseIpOrCidr a = some p) (hq : parseIpOrCidr b = some q) :
    cidrOverlaps p q = true ↔ (networkOf p ∩ networkOf q).Nonempty := by
  obtain ⟨m, -, -, rfl⟩ := exists_net_of_parse hp
  obtain ⟨n, -, -, rfl⟩ := exists_net_of_parse hq
  rw [cidrOverlaps_parsedOf, ← Net.overlaps_iff]
  constructor
  · rintro ⟨x, hm, hn⟩
    exact ⟨x, mem_networkOf_parsedOf.mpr hm, mem_networkOf_parsedOf.mpr hn⟩
  · rintro ⟨x, hm, hn⟩
    exact ⟨x, mem_networkOf_parsedOf.mp hm, mem_networkOf_parsedOf.mp hn⟩

/-- `cidrContains` of parsed values is the inclusion of their networks. -/
theorem cidrContains_iff (hp : parseIpOrCidr a = some p) (hq : parseIpOrCidr b = some q) :
    cidrContains p q = true ↔ networkOf q ⊆ networkOf p := by
  obtain ⟨m, -, -, rfl⟩ := exists_net_of_parse hp
  obtain ⟨n, -, -, rfl⟩ := exists_net_of_parse hq
  rw [cidrContains_parsedOf]
  constructor
  · intro hle x hx
    exact mem_networkOf_parsedOf.mpr (Net.mem_of_le hle (mem_networkOf_parsedOf.mp hx))
  · intro hsub
    refine net_le_of_subset fun x hx => ?_
    exact mem_networkOf_parsedOf.mp (hsub (mem_networkOf_parsedOf.mpr hx))

theorem disjoint_of_not_overlaps (hp : parseIpOrCidr a = some p) (hq : parseIpOrCidr b = some q)
    (h : cidrOverlaps p q ≠ true) : ∀ x ∈ networkOf q, x ∉ networkOf p :=
  fun x hxq hxp => h ((cidrOverlaps_iff hp hq).mpr ⟨x, hxp, hxq⟩)

end comparisons

theorem exists_mem_firstBy {α κ : Type} [DecidableEq κ] (key : α → κ) {l : List α} {a : α} (h : a ∈ l) :
    ∃ b ∈ firstBy key l, key b = key a := by
  have hfold : ∀ (l out : List α), (∃ b ∈ out, key b = key a) ∨ a ∈ l →
      ∃ b ∈ l.foldl (fun out a => if out.any fun b => key b == key a then out else out ++ [a]) out,
        key b = key a := by
    intro l
    induction l with
    | nil =>
      intro out h
      exact h.resolve_right List.not_mem_nil
    | cons c l ih =>
      intro out h
      rw [List.foldl_cons]
      apply ih
      rcases h with ⟨b, hb, hkey⟩ | h
      · left
        split
        · exact ⟨b, hb, hkey⟩
        · exact ⟨b, List.mem_append_left _ hb, hkey⟩
      · rcases List.mem_cons.mp h with rfl | h
        · left
          split
          · rename_i hany
            obtain ⟨b, hb, hkey⟩ := List.any_eq_true.mp hany
            exact ⟨b, hb, eq_of_beq hkey⟩
          · exact ⟨a, List.mem_append_right _ (List.mem_singleton.mpr rfl), rfl⟩
        · exact .inr h
  exact hfold l [] (.inr h)

/-! ## The entries -/

inductive ProtectedSource
  | interface
  | origin
  | env
deriving DecidableEq

structure ProtectedEntry where
  cidr : ParsedCidr
  source : ProtectedSource
deriving DecidableEq

/-- What the entries are read from. -/
structure ProtectedSources where
  /-- The addresses of `os.networkInterfaces()`. -/
  interfaceAddresses : List String
  /-- `BAN_PROTECTED_IPS`. -/
  banProtectedIps : Option String
  /-- The host names of `configuredPublicOrigins()`. -/
  originHosts : List String
  /-- The addresses of the last successful lookup of a host, `hostCache`. -/
  hostCache : String → List String
  /-- `ip` and `tenant_id` of the approved devices. -/
  devices : List (Option String × Nat)
  /-- `api_host`, `syslog_identifier` and `tenant_id` of the routers of approved devices. -/
  routers : List (Option String × Option String × Nat)

namespace ProtectedSources

variable (src : ProtectedSources)

def interfaceEntries : List ProtectedEntry :=
  src.interfaceAddresses.filterMap fun address => (parseIpOrCidr address).map (⟨·, .interface⟩)

/-- The widest entry of `BAN_PROTECTED_IPS`. -/
def protectedFloor : IpFamily → Nat
  | .v4 => 8
  | .v6 => 32

/-- Invalid and too wide entries are ignored. -/
def envEntries : List ProtectedEntry :=
  (((src.banProtectedIps.getD "").toList.splitOn ',').map jsTrim).filterMap fun s =>
    if s = [] then none
    else (parseIpOrCidr (String.ofList s)).bind fun p =>
      if p.plen < protectedFloor p.family then none else some ⟨p, .env⟩

/-- `replace(/^\[|\]$/g, '')`. -/
def dropBrackets (s : List Char) : List Char :=
  let s := if s.head? = some '[' then s.drop 1 else s
  if s.getLast? = some ']' then s.dropLast else s

/-- A host is an address, or the addresses last found for it. -/
def originEntries : List ProtectedEntry :=
  ((distinct (src.originHosts.map fun h => jsTrim (dropBrackets h.toList))).filter (· ≠ [])).flatMap fun host =>
    match parseIpOrCidr (String.ofList host) with
    | some literal => [⟨literal, .origin⟩]
    | none => ((src.hostCache (String.ofList host)).filterMap parseIpOrCidr).map (⟨·, .origin⟩)

/-- The entries before the duplicates are dropped. -/
def merged : List ProtectedEntry := src.interfaceEntries ++ src.envEntries ++ src.originEntries

/-- `refresh`; the key joins the source, the address and the prefix. -/
def refresh : List ProtectedEntry := firstBy (fun e => (e.source, e.cidr.address, e.cidr.plen)) src.merged

/-- `add` of `refreshInfraAddresses`: single public addresses only. -/
def infraEntry (raw : Option String) (tenantId : Nat) : Option (ParsedCidr × Nat) :=
  (parseIpOrCidr (String.ofList (dropBrackets (jsTrim (raw.getD "").toList)))).bind fun p =>
    if p.plen ≠ p.family.bits ∨ isNonPublicTarget p then none else some (p, tenantId)

/-- `refreshInfraAddresses`. -/
def refreshInfraAddresses : List (ParsedCidr × Nat) :=
  firstBy (fun e => (e.2, e.1.address))
    ((src.devices.filter (·.1.isSome)).filterMap (fun d => infraEntry d.1 d.2) ++
      src.routers.flatMap fun r => (infraEntry r.1 r.2.2).toList ++ (infraEntry r.2.1 r.2.2).toList)

/-- The environment of the ban-safety check, with the floors of `BAN_MIN_PREFIX_V4` and `_V6`. -/
def safetyEnv (banMinPrefixV4 banMinPrefixV6 : Option String) : SafetyEnv where
  banMinPrefixV4 := banMinPrefixV4
  banMinPrefixV6 := banMinPrefixV6
  interfaces := (src.refresh.filter (·.source = .interface)).map (·.cidr)
  origins := (src.refresh.filter (·.source ≠ .interface)).map (·.cidr)
  infra := src.refreshInfraAddresses

/-! ### Where the entries come from -/

/-- A parsed value. -/
def Parsed (p : ParsedCidr) : Prop := ∃ s : String, parseIpOrCidr s = some p

variable {src}

theorem parsed_of_mem_merged {e : ProtectedEntry} (h : e ∈ src.merged) : Parsed e.cidr := by
  rw [merged, List.append_assoc, List.mem_append, List.mem_append] at h
  rcases h with h | h | h
  · obtain ⟨address, -, hp⟩ := List.mem_filterMap.mp h
    obtain ⟨p, hparse, rfl⟩ := Option.map_eq_some_iff.mp hp
    exact ⟨address, hparse⟩
  · obtain ⟨s, -, hp⟩ := List.mem_filterMap.mp h
    split at hp
    · contradiction
    · obtain ⟨p, hparse, hp⟩ := Option.bind_eq_some_iff.mp hp
      split at hp
      · contradiction
      · rw [← Option.some.inj hp]
        exact ⟨_, hparse⟩
  · obtain ⟨host, -, he⟩ := List.mem_flatMap.mp h
    split at he
    · rename_i literal hliteral
      rw [List.mem_singleton.mp he]
      exact ⟨_, hliteral⟩
    · obtain ⟨p, hp, rfl⟩ := List.mem_map.mp he
      obtain ⟨address, -, hparse⟩ := List.mem_filterMap.mp hp
      exact ⟨address, hparse⟩

theorem exists_mem_refresh {e : ProtectedEntry} (h : e ∈ src.merged) : e ∈ src.refresh := by
  obtain ⟨e', he', hkey⟩ := exists_mem_firstBy (fun e : ProtectedEntry => (e.source, e.cidr.address, e.cidr.plen)) h
  have hmem := mem_firstBy he'
  obtain ⟨s, hs⟩ := parsed_of_mem_merged h
  obtain ⟨s', hs'⟩ := parsed_of_mem_merged hmem
  obtain ⟨m, -, -, hm⟩ := exists_net_of_parse hs
  obtain ⟨n, -, -, hn⟩ := exists_net_of_parse hs'
  obtain ⟨hsource, haddress, hplen⟩ : e'.source = e.source ∧ e'.cidr.address = e.cidr.address ∧
      e'.cidr.plen = e.cidr.plen := by simpa using hkey
  -- the text of an address gives its family
  have hfirst : n.first = m.first := by
    have htext : n.first.text = m.first.text := by
      rw [hm, hn] at haddress
      exact String.ofList_injective haddress
    have hparse := parseAddr_text n.first
    rw [htext, parseAddr_text] at hparse
    exact (Option.some.inj hparse).symm
  have hcidr : e'.cidr = e.cidr := by
    have hfamily : n.family = m.family := congrArg Addr.family hfirst
    rw [hm, hn] at hplen ⊢
    rw [parsedOf, parsedOf, hfirst, hfamily]
    exact congrArg _ hplen
  have he : e' = e := by
    cases e
    cases e'
    simp_all
  exact he ▸ he'

theorem parsed_of_infraEntry {raw : Option String} {tenantId : Nat} {e : ParsedCidr × Nat}
    (h : infraEntry raw tenantId = some e) : Parsed e.1 := by
  obtain ⟨p, hparse, hp⟩ := Option.bind_eq_some_iff.mp h
  by_cases hrefused : p.plen ≠ p.family.bits ∨ isNonPublicTarget p = true
  · rw [if_pos hrefused] at hp
    exact absurd hp nofun
  · rw [if_neg hrefused] at hp
    rw [← Option.some.inj hp]
    exact ⟨_, hparse⟩

theorem parsed_of_mem_infra {e : ParsedCidr × Nat} (h : e ∈ src.refreshInfraAddresses) : Parsed e.1 := by
  rcases List.mem_append.mp (mem_firstBy h) with h | h
  · obtain ⟨d, -, hd⟩ := List.mem_filterMap.mp h
    exact parsed_of_infraEntry hd
  · obtain ⟨r, -, hr⟩ := List.mem_flatMap.mp h
    rcases List.mem_append.mp hr with hr | hr
    · exact parsed_of_infraEntry (Option.mem_toList.mp hr)
    · exact parsed_of_infraEntry (Option.mem_toList.mp hr)

end ProtectedSources

/-! ## Accepted targets -/

/-- No address of the target is in one of the ranges. -/
def AvoidsRanges (ranges : List String) (p : ParsedCidr) : Prop :=
  ∀ r ∈ ranges, ∃ q, parseIpOrCidr r = some q ∧ ∀ x ∈ networkOf p, x ∉ networkOf q

theorem avoidsRanges {ranges : List String} {raw : String} {p : ParsedCidr}
    (hranges : ∀ r ∈ ranges, (parseIpOrCidr r).isSome = true) (hp : parseIpOrCidr raw = some p)
    (h : overlapsRange ranges p = false) : AvoidsRanges ranges p := by
  intro r hr
  obtain ⟨q, hq⟩ := Option.isSome_iff_exists.mp (hranges r hr)
  refine ⟨q, hq, disjoint_of_not_overlaps hq hp fun hover => ?_⟩
  have hany : overlapsRange ranges p = true :=
    List.any_eq_true.mpr ⟨q, List.mem_filterMap.mpr ⟨r, hr, hq⟩, hover⟩
  exact absurd (hany.symm.trans h) Bool.false_ne_true.symm

theorem parseBanTarget_ok {env : SafetyEnv} {raw : String} {allowCidr : Bool} {t : BanTarget}
    (h : parseBanTarget env raw allowCidr = .ok t) : parseIpOrCidr raw = some t.toParsedCidr ∧
      env.banPrefixFloor t.family ≤ t.plen ∧ isReservedBanTarget t.toParsedCidr = false := by
  unfold parseBanTarget at h
  split at h
  · contradiction
  · rename_i p hp
    dsimp only at h
    split at h
    · contradiction
    · split at h
      · contradiction
      · rename_i hfloor
        split at h
        · contradiction
        · rename_i hreserved
          rw [← Except.ok.inj h]
          exact ⟨hp, not_lt.mp hfloor, Bool.not_eq_true _ ▸ hreserved⟩

theorem checkBanTarget_ok {env : SafetyEnv} {raw : String} {allowCidr : Bool} {t : BanTarget}
    (h : checkBanTarget env raw allowCidr = .ok t) : parseBanTarget env raw allowCidr = .ok t ∧
      isNonPublicTarget t.toParsedCidr = false ∧
      findProtectedConflict env t.toParsedCidr true none = false := by
  unfold checkBanTarget at h
  split at h
  · contradiction
  · rename_i t' ht
    split at h
    · contradiction
    · rename_i hconflict
      obtain rfl := Except.ok.inj h
      rw [findBanSafetyConflict, Bool.true_and] at hconflict
      split at hconflict
      · contradiction
      · rename_i hpublic
        split at hconflict
        · contradiction
        · rename_i hprotected
          exact ⟨ht, Bool.not_eq_true _ ▸ hpublic, Bool.not_eq_true _ ▸ hprotected⟩

/-- The comparisons are those of the networks; so whatever the input and the environment, a target that
`parseBanTarget` accepts holds no reserved address and is no wider than the floor, and one that
`checkBanTarget` accepts as a global ban holds no address that is not public, none of a protected entry and
none of an approved agent or router. -/
theorem banTarget_safe :
    (∀ (a b : String) (p q : ParsedCidr), parseIpOrCidr a = some p → parseIpOrCidr b = some q →
      (cidrOverlaps p q = true ↔ (networkOf p ∩ networkOf q).Nonempty) ∧
      (cidrContains p q = true ↔ networkOf q ⊆ networkOf p)) ∧
    (∀ (env : SafetyEnv) (raw : String) (allowCidr : Bool) (t : BanTarget),
      parseBanTarget env raw allowCidr = .ok t →
        AvoidsRanges reservedBanRanges t.toParsedCidr ∧ env.banPrefixFloor t.family ≤ t.plen) ∧
    (∀ (src : ProtectedSources) (floorV4 floorV6 : Option String) (raw : String) (allowCidr : Bool)
      (t : BanTarget), checkBanTarget (src.safetyEnv floorV4 floorV6) raw allowCidr = .ok t →
        AvoidsRanges nonPublicRanges t.toParsedCidr ∧
        (∀ e ∈ src.merged, ∀ x ∈ networkOf t.toParsedCidr, x ∉ networkOf e.cidr) ∧
        ∀ e ∈ src.refreshInfraAddresses, ∀ x ∈ networkOf t.toParsedCidr, x ∉ networkOf e.1) := by
  have hreserved : ∀ r ∈ reservedBanRanges, (parseIpOrCidr r).isSome = true := by decide +kernel
  have hnonPublic : ∀ r ∈ nonPublicRanges, (parseIpOrCidr r).isSome = true := by decide +kernel
  refine ⟨fun a b p q hp hq => ⟨cidrOverlaps_iff hp hq, cidrContains_iff hp hq⟩, ?_, ?_⟩
  · intro env raw allowCidr t h
    obtain ⟨hparse, hfloor, hres⟩ := parseBanTarget_ok h
    exact ⟨avoidsRanges hreserved hparse hres, hfloor⟩
  · intro src floorV4 floorV6 raw allowCidr t h
    obtain ⟨hok, hpublic, hprotected⟩ := checkBanTarget_ok h
    have hparse := (parseBanTarget_ok hok).1
    rw [findProtectedConflict, Bool.true_and, Bool.or_eq_false_iff, Bool.or_eq_false_iff] at hprotected
    obtain ⟨⟨hinterfaces, horigins⟩, hinfra⟩ := hprotected
    refine ⟨avoidsRanges hnonPublic hparse hpublic, fun e he => ?_, fun e he => ?_⟩
    · obtain ⟨s, hs⟩ := ProtectedSources.parsed_of_mem_merged he
      have hmem := ProtectedSources.exists_mem_refresh he
      apply disjoint_of_not_overlaps hs hparse
      by_cases hsource : e.source = .interface
      · have hcidr : e.cidr ∈ (src.safetyEnv floorV4 floorV6).interfaces :=
          List.mem_map_of_mem (List.mem_filter.mpr ⟨hmem, decide_eq_true hsource⟩)
        exact List.any_eq_false.mp hinterfaces e.cidr hcidr
      · have hcidr : e.cidr ∈ (src.safetyEnv floorV4 floorV6).origins :=
          List.mem_map_of_mem (List.mem_filter.mpr ⟨hmem, decide_eq_true hsource⟩)
        exact List.any_eq_false.mp horigins e.cidr hcidr
    · obtain ⟨s, hs⟩ := ProtectedSources.parsed_of_mem_infra he
      apply disjoint_of_not_overlaps hs hparse
      have hnone := List.any_eq_false.mp hinfra e he
      simpa using hnone

/-- A public network, accepted next to a protected address of the same range. -/
theorem banTarget_safe_public :
    let src : ProtectedSources := ⟨["172.17.0.1", "198.51.100.1"], some "192.0.2.0/24, ::/0", ["[2001:db8::1]"],
      fun _ => [], [(some "203.0.113.9", 3)], [(some "198.51.100.7", none, 4)]⟩
    ∃ t, checkBanTarget (src.safetyEnv none none) " ::ffff:198.51.100.128/121" true = .ok t ∧
      (∀ e ∈ src.merged, ∀ x ∈ networkOf t.toParsedCidr, x ∉ networkOf e.cidr) ∧ src.merged.length = 4 := by
  intro src
  have hok : (checkBanTarget (src.safetyEnv none none) " ::ffff:198.51.100.128/121" true).toOption.isSome := by
    decide +kernel
  obtain ⟨t, ht⟩ := Option.isSome_iff_exists.mp hok
  have hcheck : checkBanTarget (src.safetyEnv none none) " ::ffff:198.51.100.128/121" true = .ok t := by
    cases h : checkBanTarget (src.safetyEnv none none) " ::ffff:198.51.100.128/121" true with
    | error e =>
      rw [h] at ht
      contradiction
    | ok t' =>
      rw [h] at ht
      exact congrArg Except.ok (Option.some.inj ht)
  exact ⟨t, hcheck, (banTarget_safe.2.2 src none none _ true t hcheck).2.1, by decide +kernel⟩

end Obliguard.Server

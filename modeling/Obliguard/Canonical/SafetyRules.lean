import Obliguard.Agent.BanSafety
import Obliguard.Server.BanSafety

/-!
# The server and the agent refuse the same targets

The floors and the reserved ranges of `server/src/utils/ipValidation.ts` against those of
`agent/bansafety.go`. `tooBroad_iff` and `reserved_iff` compare the two checks on one network, and
`safetyRules_agree` says what they make of texts.
-/

namespace Obliguard.Canonical

open Numeral Text IpValidation Bans Agent Server

/-- A text of ASCII characters. -/
def IsAscii (s : String) : Prop := ∀ c ∈ s.toList, c.toNat < 128

instance (s : String) : Decidable (IsAscii s) := List.decidableBAll _ _

/-! ## The floors -/

theorem readFloor_eq_readBanFloor {value : Option String} (h : ∀ s, value = some s → IsAscii s)
    (deflt lo hi : Nat) : readFloor value deflt lo hi = readBanFloor (value.getD "") deflt lo hi := by
  cases value with
  | none => rfl
  | some s =>
    have htrim : jsTrim s.toList = goTrim s.toList := by
      apply jsTrim_eq_goTrim
      intro c hc
      have hlt := h s rfl c hc
      omega
    rw [readFloor, readBanFloor, Option.getD_some]
    dsimp only
    rw [htrim]
    generalize goTrim s.toList = raw
    by_cases hnil : raw = []
    · rw [if_pos hnil, if_pos hnil]
    · rw [if_neg hnil, if_neg hnil]
      by_cases hall : raw.all (isDigit 10) = true
      · by_cases hlen : raw.length > 3
        · rw [if_pos (by simp [hlen])]
          cases atoi raw with
          | none => rfl
          | some n =>
            dsimp only
            rw [if_pos (.inl (by rwa [byteLength_digits hall]))]
        · have hshort : ¬ (byteLength raw > 3 ∨ trimBy (isDigit 10) raw ≠ []) := by
            rw [byteLength_digits hall, trimBy_eq_nil.mpr hall]
            simpa using hlen
          rw [if_neg (by simp [hall, hlen]), atoi_digits hnil hall (by omega)]
          dsimp only
          rw [if_neg hshort]
          generalize ofDigits 10 raw = n
          split
          · split
            · split <;> omega
            · split <;> omega
          · omega
      · rw [if_pos (by simp [hall])]
        cases atoi raw with
        | none => rfl
        | some n =>
          dsimp only
          rw [if_pos (.inr (mt trimBy_eq_nil.mp hall))]

/-- The variables of the server are given to the agent too. -/
def guardOf (env : SafetyEnv) (guarded : List ProtectedAddr) : BanSafety :=
  newBanSafety (env.banMinPrefixV4.getD "") (env.banMinPrefixV6.getD "") guarded

/-- The values of the two variables are ASCII. -/
def AsciiFloors (env : SafetyEnv) : Prop :=
  (∀ s, env.banMinPrefixV4 = some s → IsAscii s) ∧ ∀ s, env.banMinPrefixV6 = some s → IsAscii s

/-! ## One network -/

section network
variable {env : SafetyEnv} {guarded : List ProtectedAddr} {n : Net}

theorem floor_eq (henv : AsciiFloors env) : (if n.family = .v4 then (guardOf env guarded).minV4 else
    (guardOf env guarded).minV6) = env.banPrefixFloor n.family := by
  cases hfam : n.family with
  | v4 => exact (readFloor_eq_readBanFloor henv.1 16 8 32).symm
  | v6 => exact (readFloor_eq_readBanFloor henv.2 48 16 128).symm

theorem reservedRanges_eq : Server.reservedBanRanges.filterMap parseIpOrCidr =
    Agent.reservedBanRanges.map parsedOf := by decide +kernel

theorem isReserved_iff : isReservedBanTarget (parsedOf n) = true ↔
    ∃ r ∈ Agent.reservedBanRanges, prefixOverlaps r n = true := by
  rw [isReservedBanTarget, overlapsRange, reservedRanges_eq, List.any_map, List.any_eq_true]
  refine exists_congr fun r => and_congr_right fun _ => ?_
  rw [Function.comp_apply, cidrOverlaps_parsedOf, prefixOverlaps_iff, Net.overlaps_iff]

/-- The refusal is of the shared rules, not of an address the agent protects. -/
def IsShared : Refusal → Prop
  | .wider _ => True
  | .reserved _ => True
  | .covers _ => False

theorem checkLocked_shared_iff (henv : AsciiFloors env) :
    (∃ r, (guardOf env guarded).checkLocked n = some r ∧ IsShared r) ↔
      n.len < env.banPrefixFloor n.family ∨ isReservedBanTarget (parsedOf n) = true := by
  rw [isReserved_iff, BanSafety.checkLocked, floor_eq henv]
  by_cases hfloor : n.len < env.banPrefixFloor n.family
  · rw [if_pos hfloor]
    exact ⟨fun _ => .inl hfloor, fun _ => ⟨_, rfl, trivial⟩⟩
  · rw [if_neg hfloor]
    cases hfind : Agent.reservedBanRanges.find? fun r => prefixOverlaps r n with
    | some r =>
      have hr := List.find?_some hfind
      exact ⟨fun _ => .inr ⟨r, List.mem_of_find?_eq_some hfind, hr⟩, fun _ => ⟨_, rfl, trivial⟩⟩
    | none =>
      have hnone := List.find?_eq_none.mp hfind
      constructor
      · rintro ⟨r, hr, hshared⟩
        obtain ⟨pa, -, rfl⟩ := Option.map_eq_some_iff.mp hr
        exact absurd hshared id
      · rintro (h | ⟨r, hr, hover⟩)
        · exact absurd h hfloor
        · exact absurd hover (hnone r hr)

end network

/-! ## Texts -/

theorem parseBanTarget_ok_iff {env : SafetyEnv} {raw : String} {n : Net} (h : netOfText raw = some n) :
    (∃ t, parseBanTarget env raw true = .ok t) ↔
      ¬ (n.len < env.banPrefixFloor n.family ∨ isReservedBanTarget (parsedOf n) = true) := by
  have hparse : parseIpOrCidr raw = some (parsedOf n) := by
    rw [parseIpOrCidr_netOfText, h]
    rfl
  unfold parseBanTarget
  split
  · rename_i hnone
    rw [hparse] at hnone
    contradiction
  · rename_i p hp
    obtain rfl : p = parsedOf n := Option.some.inj (hp.symm.trans hparse)
    dsimp only
    rw [Bool.not_true, Bool.and_false, if_neg (by decide)]
    have hlen : (parsedOf n).plen < env.banPrefixFloor (parsedOf n).family ↔
        n.len < env.banPrefixFloor n.family := Iff.rfl
    by_cases hfloor : n.len < env.banPrefixFloor n.family
    · rw [if_pos (hlen.mpr hfloor)]
      constructor
      · rintro ⟨t, ht⟩
        contradiction
      · intro hnot
        exact absurd (.inl hfloor) hnot
    · rw [if_neg (mt hlen.mp hfloor)]
      by_cases hreserved : isReservedBanTarget (parsedOf n) = true
      · rw [if_pos hreserved]
        constructor
        · rintro ⟨t, ht⟩
          contradiction
        · intro hnot
          exact absurd (.inr hreserved) hnot
      · rw [if_neg hreserved]
        exact ⟨fun _ => not_or.mpr ⟨hfloor, hreserved⟩, fun _ => ⟨_, rfl⟩⟩

theorem filter_singleton {g : BanSafety} {entry k : String} {p : Net}
    (hentry : canonicalBanEntry entry = some (k, p)) (h : g.checkLocked p = none) :
    (g.filter [entry]).1 = [k] := by
  rw [BanSafety.filter, BanSafety.filterFrom, BanSafety.judge, hentry]
  dsimp only
  rw [h]
  rfl

theorem checkLocked_eq_none {g : BanSafety} {p : Net} (hguarded : ∀ pa ∈ g.guarded, pa.addr ∉ p)
    (h : ∀ r, g.checkLocked p = some r → ¬ IsShared r) : g.checkLocked p = none := by
  rw [Option.eq_none_iff_forall_ne_some]
  intro r hr
  have hnot := h r hr
  unfold BanSafety.checkLocked at hr
  dsimp only at hr
  generalize (if p.family = .v4 then g.minV4 else g.minV6) = floor at hr
  split at hr
  · cases hr
    exact hnot trivial
  · split at hr
    · cases hr
      exact hnot trivial
    · obtain ⟨pa, hpa, -⟩ := Option.map_eq_some_iff.mp hr
      have hcovered := List.find?_some hpa
      exact hguarded pa (List.mem_of_find?_eq_some hpa) (of_decide_eq_true hcovered)

/-- Given the same variables, the two sides read the same floors; what the server accepts passes the
agent's floors and reserved ranges in the text it is delivered in, and what the agent refuses under
these the server refuses too. -/
theorem safetyRules_agree :
    (∀ (value : Option String) (deflt lo hi : Nat), (∀ s, value = some s → IsAscii s) →
      readFloor value deflt lo hi = readBanFloor (value.getD "") deflt lo hi) ∧
    ∀ (env : SafetyEnv) (guarded : List ProtectedAddr), AsciiFloors env →
      (∀ (raw : String) (t : BanTarget) (b : BanRow), parseBanTarget env raw true = .ok t →
        b.target.rowTarget = some t.toParsedCidr →
        ∃ text p, deliveredText true b = some text ∧ canonicalBanEntry text = some (text, p) ∧
          (∀ r, (guardOf env guarded).checkLocked p = some r → ¬ IsShared r) ∧
          ((∀ pa ∈ guarded, pa.addr ∉ p) → ((guardOf env guarded).filter [text]).1 = [text])) ∧
      ∀ (entry k : String) (p : Net) (r : Refusal), canonicalBanEntry entry = some (k, p) →
        (guardOf env guarded).checkLocked p = some r → IsShared r →
        ∃ e, parseBanTarget env k true = .error e := by
  refine ⟨fun value deflt lo hi h => readFloor_eq_readBanFloor h deflt lo hi, ?_⟩
  intro env guarded henv
  constructor
  · intro raw t b ht hb
    have hnet := (parseBanTarget_net ht).1
    have hpass := (parseBanTarget_ok_iff hnet).mp ⟨t, ht⟩
    have hshared : ∀ r, (guardOf env guarded).checkLocked t.net = some r → ¬ IsShared r :=
      fun r hr h => hpass ((checkLocked_shared_iff henv).mp ⟨r, hr, h⟩)
    have hentry : canonicalBanEntry (String.ofList t.net.text) = some (String.ofList t.net.text, t.net) := by
      rw [canonicalBanEntry_eq, String.toList_ofList, goTrim_text t.not_mapped,
        readTarget_text t.not_mapped]
      rfl
    refine ⟨String.ofList t.net.text, t.net, ?_, hentry, hshared, ?_⟩
    · rw [deliveredText, hb, Option.map_some, if_pos rfl, t.parsed, targetText_parsedOf]
    · intro hguarded
      exact filter_singleton hentry (checkLocked_eq_none hguarded hshared)
  · intro entry k p r hentry hr hshared
    have hnet : netOfText k = some p := by
      rw [canonicalBanEntry_eq] at hentry
      obtain ⟨n, hn, hk⟩ := Option.map_eq_some_iff.mp hentry
      cases hk
      exact netOfText_text (readTarget_not_mapped hn)
    have hrefused := (checkLocked_shared_iff henv).mp ⟨r, hr, hshared⟩
    cases hparse : parseBanTarget env k true with
    | error e => exact ⟨e, rfl⟩
    | ok t => exact absurd hrefused ((parseBanTarget_ok_iff hnet).mp ⟨t, hparse⟩)

/-- A ban of 203.0.113.0/24. -/
def subnetBan : BanRow where
  id := 1
  target := ⟨⟨.v4, 0xcb007100, 32, by decide, sampleHost.len_le⟩, some 24, by decide⟩
  reason := none
  banType := .manual
  scope := .global
  scopeId := none
  tenantId := none
  originTenantId := none
  originApp := none
  originRef := none
  bannedByUserId := none
  expiresAt := none
  isActive := true
  liftedAt := none
  liftReason := none

/-- Floors of 20 on both sides: a /24 passes the agent in the form it is delivered in, and a /16 is
refused by both. -/
theorem safetyRules_agree_floor20 : ∃ env t, env.banMinPrefixV4 = some " 020" ∧
    parseBanTarget env "::FFFF:203.0.113.9/120" true = .ok t ∧
      deliveredText true subnetBan = some "203.0.113.0/24" ∧
      ((guardOf env []).filter ["203.0.113.0/24"]).1 = ["203.0.113.0/24"] ∧
      ∃ e, parseBanTarget env "198.51.0.0/16" true = .error e := by
  obtain ⟨env, henv⟩ : ∃ env : SafetyEnv, env = ⟨some " 020", none, [], [], []⟩ := ⟨_, rfl⟩
  have hascii : AsciiFloors env := by
    rw [henv]
    constructor
    · rintro s hs
      cases hs
      decide
    · rintro s hs
      contradiction
  obtain ⟨haccepts, hrefuses⟩ := safetyRules_agree.2 env [] hascii
  have htarget : (parseBanTarget env "::FFFF:203.0.113.9/120" true).toOption.map (·.toParsedCidr) =
      some ⟨"203.0.113.0", .v4, 24⟩ := by
    rw [henv]
    decide +kernel
  have hdelivered : deliveredText true subnetBan = some "203.0.113.0/24" := by decide +kernel
  have hwide : (guardOf env []).checkLocked ⟨.v4, 0xc6330000, 16, by decide, by decide, by decide⟩ =
      some (.wider 20) := by
    rw [henv]
    decide +kernel
  cases hparse : parseBanTarget env "::FFFF:203.0.113.9/120" true with
  | error e =>
    rw [hparse] at htarget
    contradiction
  | ok t =>
    rw [hparse] at htarget
    have hrow : subnetBan.target.rowTarget = some t.toParsedCidr := by
      rw [show some t.toParsedCidr = some ⟨"203.0.113.0", .v4, 24⟩ from htarget]
      decide +kernel
    obtain ⟨text, p, htext, -, -, hfilter⟩ := haccepts _ t subnetBan hparse hrow
    obtain rfl : "203.0.113.0/24" = text := Option.some.inj (hdelivered.symm.trans htext)
    refine ⟨env, t, by rw [henv], hparse, hdelivered, hfilter (by simp), ?_⟩
    exact hrefuses "198.51.0.0/16" "198.51.0.0/16" _ _ (by decide +kernel) hwide trivial

end Obliguard.Canonical

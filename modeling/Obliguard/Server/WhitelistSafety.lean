import Obliguard.Server.Delivery

/-!
# Whitelisted addresses and delivery

What `computeBanDelta` guarantees about the whitelist. Delivery drops a ban whose whole target lies
in an applicable entry; `whitelistSafe_iff` says for which tables this is enough: an agent then
enforces no whitelisted address exactly when no deliverable ban is wider than an applicable entry
(`Exposes`).
-/

namespace Obliguard.Server

open Bans IpValidation Text HighBits

/-- The context of the entries applicable to a device. -/
def deviceContext (deviceId : Nat) (groupIds : List Nat) (tenantId : Nat) : WhitelistMatchContext :=
  ⟨some tenantId, groupIds, some deviceId⟩

/-- Nothing the delta adds, and nothing it leaves in the reported set, holds an address of an
applicable whitelist entry. -/
def WhitelistSafe (db : Db) (now : Int) (deviceId : Nat) (groupIds : List Nat) (tenantId : Nat)
    (reported : List String) (cidr : Option Bool) : Prop :=
  let delta := computeBanDelta db now deviceId groupIds tenantId reported cidr
  ∀ t, (t ∈ delta.add ∨ (t ∈ reported ∧ t ∉ delta.remove)) → ∀ n, netOfText t = some n →
    ∀ w ∈ db.whitelist.rows, whitelistApplies (deviceContext deviceId groupIds tenantId) w = true →
      ∀ a ∈ n, a ∉ w.ip

/-- A target stored as an IPv4-mapped IPv6 address. -/
def IsMappedTarget (s : Stored) : Prop := s.ip.family = .v6 ∧ s.ip.addr / 2 ^ 32 = 0xffff

instance (s : Stored) : Decidable (IsMappedTarget s) := inferInstanceAs (Decidable (_ ∧ _))

/-- The IPv6 value of a mapped IPv4 value. -/
def mappedValue (v : Nat) : Nat := 0xffff * 2 ^ 32 + v

/-- A whitelist entry that delivery does not protect from a ban it does not contain: it lies
strictly inside the banned network and, for a device without subnets, it holds the network address.
A mapped target is compared as stored, in IPv6, and enforced in IPv4, where every entry it meets is
exposed. -/
def Exposes (cidr : Bool) (s : Stored) (w : Net) : Prop :=
  if IsMappedTarget s then
    96 ≤ s.effectivePrefix ∧ ∃ a ∈ w, a.family = .v4 ∧
      if cidr then SameHigh (128 - s.effectivePrefix) (mappedValue a.value) s.ip.addr
      else mappedValue a.value = s.networkSql.net.addr
  else w < s.networkSql.net ∧ (cidr = true ∨ s.networkSql.net.first ∈ w)

/-! ## Mapped targets -/

theorem mappedValue_dvd {k : Nat} (hk : k ≤ 32) : 2 ^ k ∣ 0xffff * 2 ^ 32 :=
  (Nat.pow_dvd_pow 2 hk).trans (Nat.dvd_mul_left _ _)

theorem IsMappedTarget.addr_eq {s : Stored} (hm : IsMappedTarget s) :
    s.ip.addr = mappedValue (s.ip.addr % 2 ^ 32) := by
  have hdiv := hm.2
  have := Nat.div_add_mod s.ip.addr (2 ^ 32)
  rw [mappedValue]
  omega

theorem mem_deliveredNet_mapped {cidr : Bool} {s : Stored} (hm : IsMappedTarget s) {a : Addr} :
    (∃ n, deliveredNet cidr s = some n ∧ a ∈ n) ↔ 96 ≤ s.effectivePrefix ∧ a.family = .v4 ∧
      if cidr then SameHigh (128 - s.effectivePrefix) (mappedValue a.value) s.ip.addr
        else mappedValue a.value = s.networkSql.net.addr := by
  have hm' : s.networkSql.host.family = .v6 ∧ s.networkSql.host.value / 2 ^ 32 = 0xffff := hm
  have hle : s.effectivePrefix ≤ 128 := by
    have := s.effectivePrefix_le
    rwa [hm.1] at this
  unfold deliveredNet targetOf
  rw [dif_pos hm']
  by_cases h96 : 96 ≤ s.effectivePrefix
  · rw [if_pos h96]
    simp only [Option.map_some, Option.some.injEq, exists_eq_left', h96, true_and]
    have hk : IpFamily.v4.bits - (s.effectivePrefix - 96) = 128 - s.effectivePrefix := by
      simp only [IpFamily.bits]
      omega
    have hdvd := mappedValue_dvd (show 128 - s.effectivePrefix ≤ 32 by omega)
    have hvalue : s.ip.addr = 0xffff * 2 ^ 32 + s.ip.addr % 2 ^ 32 := hm.addr_eq
    cases cidr with
    | true =>
      simp only [if_true]
      refine (Net.mem_ofAddr _ _).trans ?_
      rw [hk, hvalue, mappedValue, sameHigh_add hdvd]
      rfl
    | false =>
      simp only [Bool.false_eq_true, if_false]
      refine Net.mem_ofHost_addr.trans ?_
      have haddr : s.networkSql.net.addr =
          0xffff * 2 ^ 32 + clearLow (128 - s.effectivePrefix) (s.ip.addr % 2 ^ 32) := by
        have hnet : s.networkSql.net.addr = clearLow (128 - s.effectivePrefix) s.ip.addr := by
          show clearLow (s.ip.family.bits - s.effectivePrefix) s.ip.addr = _
          rw [hm.1]
          rfl
        rw [hnet, ← clearLow_add hdvd, ← hvalue]
      rw [haddr, mappedValue, Nat.add_left_cancel_iff, ← hk, Addr.ext_iff]
      rfl
  · rw [if_neg h96]
    simp [h96]

theorem mem_deliveredNet_plain {cidr : Bool} {s : Stored} (hm : ¬ IsMappedTarget s) {a : Addr} :
    (∃ n, deliveredNet cidr s = some n ∧ a ∈ n) ↔
      if cidr then a ∈ s.networkSql.net else a = s.networkSql.net.first := by
  have hm' : ¬ (s.networkSql.host.family = .v6 ∧ s.networkSql.host.value / 2 ^ 32 = 0xffff) := hm
  unfold deliveredNet targetOf
  rw [dif_neg hm']
  simp only [Option.map_some, Option.some.injEq, exists_eq_left']
  cases cidr with
  | true => exact Iff.rfl
  | false =>
    simp only [Bool.false_eq_true, if_false]
    exact Net.mem_ofHost_addr

/-! ## Exposed entries -/

/-- An entry that does not contain a stored target meets what is delivered for it exactly when the
target exposes it. -/
theorem exposes_iff {cidr : Bool} {s : Stored} {w : Net} (hw : ¬ s.networkSql.net ≤ w) :
    Exposes cidr s w ↔ ∃ n, deliveredNet cidr s = some n ∧ ∃ a ∈ n, a ∈ w := by
  have hswap : (∃ n, deliveredNet cidr s = some n ∧ ∃ a ∈ n, a ∈ w) ↔
      ∃ a ∈ w, ∃ n, deliveredNet cidr s = some n ∧ a ∈ n := by
    constructor
    · rintro ⟨n, hn, a, ha, haw⟩
      exact ⟨a, haw, n, hn, ha⟩
    · rintro ⟨a, haw, n, hn, ha⟩
      exact ⟨n, hn, a, ha, haw⟩
  rw [hswap]
  by_cases hm : IsMappedTarget s
  · simp only [Exposes, if_pos hm, mem_deliveredNet_mapped hm]
    constructor
    · rintro ⟨h96, a, haw, h⟩
      exact ⟨a, haw, h96, h⟩
    · rintro ⟨a, haw, h96, h⟩
      exact ⟨h96, a, haw, h⟩
  · simp only [Exposes, if_neg hm, mem_deliveredNet_plain hm]
    -- nested networks: the entry is the smaller one, since it does not contain the target
    have hlt : ∀ a ∈ w, a ∈ s.networkSql.net → w < s.networkSql.net := by
      intro a haw has
      rcases Net.le_total_of_mem haw has with h | h
      · exact lt_of_le_not_ge h hw
      · exact absurd h hw
    cases cidr with
    | true =>
      simp only [true_or, and_true, if_true]
      constructor
      · intro h
        exact ⟨w.first, w.first_mem, Net.mem_of_le h.le w.first_mem⟩
      · rintro ⟨a, haw, has⟩
        exact hlt a haw has
    | false =>
      simp only [Bool.false_eq_true, false_or, if_false]
      constructor
      · rintro ⟨-, hf⟩
        exact ⟨_, hf, rfl⟩
      · rintro ⟨a, haw, rfl⟩
        exact ⟨hlt _ haw s.networkSql.net.first_mem, haw⟩

section safety
variable {db : Db} {now : Int} {deviceId : Nat} {groupIds : List Nat} {tenantId : Nat}
  {reported : List String} {cidr : Option Bool}

theorem kept_iff {n : Net} : (∃ t, (t ∈ (computeBanDelta db now deviceId groupIds tenantId reported
      cidr).add ∨ (t ∈ reported ∧ t ∉ (computeBanDelta db now deviceId groupIds tenantId reported
      cidr).remove)) ∧ netOfText t = some n) ↔
    ∃ b ∈ db.bans.rows, deliverable db now deviceId groupIds tenantId b = true ∧
      deliveredNet (enforcesCidr db deviceId cidr) b.target = some n := by
  simp only [computeBanDelta, mem_add, mem_remove, not_and, not_not]
  constructor
  · rintro ⟨t, h, hn⟩
    have hkey : ∃ m : Net, netOfText t = some m ∧
        String.ofList m.text ∈ wanted db now deviceId groupIds tenantId (enforcesCidr db deviceId cidr)
          ∧ ¬ m.IsMapped := by
      rcases h with ⟨hw, -⟩ | ⟨hr, hw⟩
      · obtain ⟨m, hm, rfl⟩ := wanted_canonical hw
        exact ⟨m, netOfText_text hm, hw, hm⟩
      · obtain ⟨m, hm, hk⟩ := wanted_canonical (hw hr)
        exact ⟨m, netOfText_of_reportedKey hm hk, hk ▸ hw hr, hm⟩
    obtain ⟨m, hread, hw, hm⟩ := hkey
    obtain ⟨b, hb, hd, k, hk, htext⟩ := wanted_iff.mp hw
    have hkm : k = m := Net.text_injective (deliveredNet_not_mapped hk) hm (String.ofList_inj.mp htext)
    rw [hread, ← hkm] at hn
    exact ⟨b, hb, hd, hn ▸ hk⟩
  · rintro ⟨b, hb, hd, hn⟩
    have hm := deliveredNet_not_mapped hn
    have hw := wanted_iff.mpr ⟨b, hb, hd, n, hn, rfl⟩
    by_cases hr : ∃ r ∈ reported, reportedKey r = String.ofList n.text
    · obtain ⟨r, hr, hk⟩ := hr
      exact ⟨r, Or.inr ⟨hr, fun _ => hk ▸ hw⟩, netOfText_of_reportedKey hm hk⟩
    · push Not at hr
      exact ⟨_, Or.inl ⟨hw, hr⟩, netOfText_text hm⟩

theorem not_covered {ctx : WhitelistMatchContext} {b : BanRow} (h : isCovered db ctx b = false)
    {w : WhitelistRow} (hw : w ∈ db.whitelist.rows) (ha : whitelistApplies ctx w = true) :
    ¬ b.target.networkSql.net ≤ w.ip := by
  intro hle
  have hc : (Inet.ofNet w.ip).contains b.target.networkSql = true := by
    rw [Inet.contains_iff, Inet.net_ofNet]
    exact hle
  rw [isCovered, List.any_eq_false] at h
  exact h w hw (by simp [hc, ha])

theorem not_covered_of_deliverable {b : BanRow}
    (h : deliverable db now deviceId groupIds tenantId b = true) :
    isCovered db (deviceContext deviceId groupIds tenantId) b = false := by
  simp only [deliverable, Bool.and_eq_true, Bool.not_eq_true'] at h
  exact h.1.2

/-- No whitelisted address is enforced exactly when no deliverable ban exposes an applicable
whitelist entry. -/
theorem whitelistSafe_iff (db : Db) (now : Int) (deviceId : Nat) (groupIds : List Nat)
    (tenantId : Nat) (reported : List String) (cidr : Option Bool) :
    WhitelistSafe db now deviceId groupIds tenantId reported cidr ↔
      ∀ b ∈ db.bans.rows, deliverable db now deviceId groupIds tenantId b = true →
        ∀ w ∈ db.whitelist.rows,
          whitelistApplies (deviceContext deviceId groupIds tenantId) w = true →
            ¬ Exposes (enforcesCidr db deviceId cidr) b.target w.ip := by
  constructor
  · intro hsafe b hb hd w hw happ hex
    rw [exposes_iff (not_covered (not_covered_of_deliverable hd) hw happ)] at hex
    obtain ⟨n, hn, a, ha, haw⟩ := hex
    obtain ⟨t, ht, hread⟩ := kept_iff.mpr ⟨b, hb, hd, hn⟩
    exact hsafe t ht n hread w hw happ a ha haw
  · intro h t ht n hread w hw happ a ha haw
    obtain ⟨b, hb, hd, hn⟩ := kept_iff.mp ⟨t, ht, hread⟩
    apply h b hb hd w hw happ
    rw [exposes_iff (not_covered (not_covered_of_deliverable hd) hw happ)]
    exact ⟨n, hn, a, ha, haw⟩

end safety

/-! ## A subnet around a whitelisted address -/

theorem exposedSubnet_lt : 0x01020300 < 2 ^ IpFamily.v4.bits := by decide

/-- The network `1.2.3.0/24`. -/
def exposedSubnet : Net := ⟨.v4, 0x01020300, 24, exposedSubnet_lt, sampleSubnet.len_le, by decide⟩

/-- The address `1.2.3.4` as a network. -/
def trustedHost : Net := ⟨.v4, 0x01020304, 32, by decide, sampleHost.len_le, by decide⟩

/-- Tables with the global ban of a subnet, the global whitelist entry of one of its addresses and
one device that enforces subnets. -/
def exposedDb : Db := { Db.empty with
  bans := ⟨[{
    id := 1, target := Stored.ofNet exposedSubnet, reason := none, banType := .remote,
    scope := .global, scopeId := none, tenantId := none, originTenantId := some 1,
    originApp := none, originRef := some (.blocklist 1), bannedByUserId := none, expiresAt := none,
    isActive := true, liftedAt := none, liftReason := none }], 2, by decide, Nat.two_pos, by decide⟩
  whitelist := ⟨[⟨1, trustedHost, none, .global, none, none, none, 0⟩], 2, by decide, Nat.two_pos,
    by decide⟩
  devices := subnetDevices }

/-- The subnet is delivered with the whitelisted address in it. -/
theorem not_whitelistSafe_exposedDb : ¬ WhitelistSafe exposedDb 0 7 [] 2 [] none := by
  intro h
  refine h "1.2.3.0/24" (Or.inl (by decide +kernel)) exposedSubnet (by decide +kernel)
    ⟨1, trustedHost, none, .global, none, none, none, 0⟩ (by decide) (by decide) trustedHost.first
    (by decide) (by decide)

end Obliguard.Server

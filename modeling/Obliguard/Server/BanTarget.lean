import Obliguard.Base.Inet
import Obliguard.Server.ParseIp

/-!
# Delivered texts of ban targets

`targetText` and `rowTarget` of `server/src/services/ban.service.ts`, and `banTargetRawFromRow` of
`ipValidation.ts`. A subnet is stored as its network address in `ip` plus `cidr_prefix`; a legacy
row carries the prefix in the mask of `ip` instead. `rowTarget_eq` says that both forms are read
back as the network they store, an IPv4-mapped one as the IPv4 network it maps.
-/

namespace Obliguard.Bans

open Numeral AddrText Text HighBits IpValidation

/-- `fullPrefix`. -/
def fullPrefix (p : ParsedCidr) : Nat :=
  match p.family with
  | .v4 => 32
  | .v6 => 128

/-- Canonical text of a target: the bare address for /32 and /128, else `address/prefix`. -/
def targetText (p : ParsedCidr) : String :=
  if p.plen = fullPrefix p then p.address
  else String.ofList (p.address.toList ++ '/' :: Nat.toDigits 10 p.plen)

/-- The raw target of a stored ban row (`ip` may already carry a mask, else `cidr_prefix`). -/
def banTargetRawFromRow (ip : List Char) (cidrPrefix : Option Nat) : String :=
  String.ofList (if '/' ∈ ip then ip
    else match cidrPrefix with
      | some p => ip ++ '/' :: Nat.toDigits 10 p
      | none => ip)

/-- The two forms in which a target is stored: the prefix length is in `cidrPrefix` or, with
`cidrPrefix` empty, in the mask of `ip`. -/
structure Stored where
  ip : Inet
  cidrPrefix : Option Nat
  form : ∀ p ∈ cidrPrefix, p ≤ ip.family.bits ∧ ip.masklen = ip.family.bits
deriving DecidableEq

namespace Stored

/-- `prefixSql`: `COALESCE(cidr_prefix, masklen(ip))`. -/
def effectivePrefix (s : Stored) : Nat := s.cidrPrefix.getD s.ip.masklen

theorem effectivePrefix_le (s : Stored) : s.effectivePrefix ≤ s.ip.family.bits := by
  rw [effectivePrefix]
  cases h : s.cidrPrefix with
  | none => exact s.ip.masklen_le
  | some p => exact (s.form p h).1

/-- `networkSql`: `set_masklen(ip, COALESCE(cidr_prefix, masklen(ip)))`. -/
def networkSql (s : Stored) : Inet := s.ip.setMasklen s.effectivePrefix s.effectivePrefix_le

/-- `rowTarget`: the parsed target of a stored row. -/
def rowTarget (s : Stored) : Option ParsedCidr :=
  parseIpOrCidr (banTargetRawFromRow s.ip.text s.cidrPrefix)

/-- The network address with `cidr_prefix`, as every current path stores a target. -/
def ofNet (n : Net) : Stored where
  ip := Inet.ofAddr n.first
  cidrPrefix := if n.IsHost then none else some n.len
  form := by
    intro p hp
    split at hp
    · contradiction
    · rw [← Option.some.inj hp]
      exact ⟨n.len_le, rfl⟩

end Stored

/-! ## Texts and networks -/

theorem targetText_parsedOf (n : Net) : targetText (parsedOf n) = String.ofList n.text := by
  have hfull : fullPrefix (parsedOf n) = n.family.bits := by
    cases h : n.family <;> simp [fullPrefix, parsedOf, h, IpFamily.bits]
  rw [targetText, hfull, Net.text]
  by_cases h : n.IsHost
  · rw [if_pos (show (parsedOf n).plen = n.family.bits from h), if_pos h]
    rfl
  · rw [if_neg (show ¬ (parsedOf n).plen = n.family.bits from h), if_neg h]
    simp [parsedOf]

theorem jsTrim_targetChars {s : List Char} (h : ∀ c ∈ s, IsTargetChar c) : jsTrim s = s :=
  trimBy_eq_self fun c hc => (isTargetChar_not_space (h c hc)).1

/-- A stored target reads as its network. -/
theorem Stored.rowTarget_eq (s : Stored) : s.rowTarget =
    (targetOf s.networkSql.host s.effectivePrefix s.effectivePrefix_le).map parsedOf := by
  have hraw : ∃ t : List Char, banTargetRawFromRow s.ip.text s.cidrPrefix = String.ofList t ∧
      (∀ c ∈ t, IsTargetChar c) ∧
      readTarget t = targetOf s.networkSql.host s.effectivePrefix s.effectivePrefix_le := by
    by_cases hfull : s.ip.masklen = s.ip.family.bits
    · have htext : s.ip.text = Inet.addrText s.ip.host := if_pos hfull
      have hslash := Inet.slash_not_mem_addrText s.ip.host
      have hchars := Inet.isTargetChar_addrText s.ip.host
      cases hp : s.cidrPrefix with
      | none =>
        refine ⟨Inet.addrText s.ip.host, by simp [banTargetRawFromRow, htext, hslash], hchars, ?_⟩
        have hlen : s.effectivePrefix = s.ip.host.family.bits := by
          rw [effectivePrefix, hp]
          exact hfull
        rw [Inet.readTarget_addrText]
        simp only [hlen]
        rfl
      | some p =>
        refine ⟨Inet.addrText s.ip.host ++ '/' :: Nat.toDigits 10 p,
          by simp [banTargetRawFromRow, htext, hslash], ?_, ?_⟩
        · intro c hc
          rcases List.mem_append.mp hc with hc | hc
          · exact hchars c hc
          · rcases List.mem_cons.mp hc with rfl | hc
            · exact Or.inl rfl
            · exact Inet.isTargetChar_toDigits p c hc
        · have hlen : s.effectivePrefix = p := by rw [effectivePrefix, hp]; rfl
          rw [Inet.readTarget_addrText_len s.ip.host (s.form p hp).1]
          simp only [hlen]
          rfl
    · have htext : s.ip.text = Inet.addrText s.ip.host ++ '/' :: Nat.toDigits 10 s.ip.masklen :=
        if_neg hfull
      have hp : s.cidrPrefix = none := by
        cases hp : s.cidrPrefix with
        | none => rfl
        | some p => exact absurd (s.form p hp).2 hfull
      refine ⟨s.ip.text, ?_, ?_, ?_⟩
      · have hmem : '/' ∈ s.ip.text := by rw [htext]; simp
        simp only [banTargetRawFromRow, if_pos hmem]
      · rw [htext]
        intro c hc
        rcases List.mem_append.mp hc with hc | hc
        · exact Inet.isTargetChar_addrText s.ip.host c hc
        · rcases List.mem_cons.mp hc with rfl | hc
          · exact Or.inl rfl
          · exact Inet.isTargetChar_toDigits _ c hc
      · have hlen : s.effectivePrefix = s.ip.masklen := by rw [effectivePrefix, hp]; rfl
        rw [Inet.readTarget_text]
        simp only [hlen]
        rfl
  obtain ⟨t, ht, hchars, hread⟩ := hraw
  rw [rowTarget, ht, parseIpOrCidr_eq, String.toList_ofList, jsTrim_targetChars hchars, hread]

theorem Stored.networkSql_ofNet (n : Net) : (ofNet n).networkSql = Inet.ofNet n := by
  have hlen : (ofNet n).effectivePrefix = n.len := by
    rw [effectivePrefix, ofNet]
    by_cases h : n.IsHost
    · simp only [if_pos h, Option.getD_none]
      exact h.symm
    · simp only [if_neg h, Option.getD_some]
  exact Inet.ext rfl rfl hlen

end Obliguard.Bans

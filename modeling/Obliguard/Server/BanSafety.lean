import Obliguard.Server.Delivery

/-!
# The ban-safety check

`parseBanTarget` of `server/src/utils/ipValidation.ts` and `checkBanTarget` of `protectedIps.ts`:
what every path that creates a ban asks of its target. The addresses that the server protects
(interfaces, configured origins, environment, approved agents and routers) come from the system and
are an input (`SafetyEnv`).

An accepted target carries the network its texts name, so that the statements that cast it to
`inet` need no second parser; `checkBanTarget_net` says which network that is.
-/

namespace Obliguard.Server

open Bans IpValidation Text Numeral

inductive BanTargetErrorCode
  | invalid
  | cidrNotAllowed
  | tooBroad
  | reserved
  | protectedAddress
deriving DecidableEq, Repr

structure BanTargetError where
  code : BanTargetErrorCode
  message : String
deriving DecidableEq

/-- A parsed target that passed the policy. -/
structure BanTarget extends ParsedCidr where
  isNetwork : Bool
  /-- `address/plen` for a network, the bare address for a host. -/
  cidr : String
  /-- The network the texts name. -/
  net : Net
  not_mapped : ¬ net.IsMapped
  parsed : toParsedCidr = parsedOf net

/-- `RESERVED_OR_PROTECTED_MESSAGE`: one message, so that a refusal never tells which one it was. -/
def reservedOrProtectedMessage : String := "Reserved or protected address: it cannot be banned"

/-- `RESERVED_BAN_RANGES`. -/
def reservedBanRanges : List String :=
  ["0.0.0.0/8", "127.0.0.0/8", "169.254.0.0/16", "224.0.0.0/4", "240.0.0.0/4", "::/128", "::1/128",
    "fe80::/10", "ff00::/8"]

/-- `NON_PUBLIC_RANGES`: never the target of a global ban. -/
def nonPublicRanges : List String :=
  ["0.0.0.0/8", "10.0.0.0/8", "100.64.0.0/10", "127.0.0.0/8", "169.254.0.0/16", "172.16.0.0/12",
    "192.168.0.0/16", "224.0.0.0/4", "240.0.0.0/4", "::/128", "::1/128", "fc00::/7", "fe80::/10",
    "ff00::/8"]

/-- The target overlaps one of the ranges. -/
def overlapsRange (ranges : List String) (p : ParsedCidr) : Bool :=
  (ranges.filterMap parseIpOrCidr).any fun r => cidrOverlaps r p

def isReservedBanTarget (p : ParsedCidr) : Bool := overlapsRange reservedBanRanges p

def isNonPublicTarget (p : ParsedCidr) : Bool := overlapsRange nonPublicRanges p

/-- `readFloor`: a number of one to three digits, clamped; else the default. -/
def readFloor (raw : Option String) (deflt lo hi : Nat) : Nat :=
  match raw with
  | none => deflt
  | some s =>
    let s := jsTrim s.toList
    if s = [] then deflt
    else if s.length > 3 || !s.all (isDigit 10) then deflt
    else min hi (max lo (ofDigits 10 s))

/-- The environment variables and the protected addresses of the server. -/
structure SafetyEnv where
  banMinPrefixV4 : Option String
  banMinPrefixV6 : Option String
  /-- Addresses of the server's own interfaces. -/
  interfaces : List ParsedCidr
  /-- Addresses of the configured origins and of `BAN_PROTECTED_IPS`. -/
  origins : List ParsedCidr
  /-- Public addresses of approved agents and routers, with their tenants. -/
  infra : List (ParsedCidr × Nat)

/-- `banPrefixFloor`: the widest bannable prefix of a family. -/
def SafetyEnv.banPrefixFloor (env : SafetyEnv) : IpFamily → Nat
  | .v4 => readFloor env.banMinPrefixV4 16 8 32
  | .v6 => readFloor env.banMinPrefixV6 48 16 128

theorem parseIpOrCidr_netOfText (raw : String) : parseIpOrCidr raw = (netOfText raw).map parsedOf :=
  parseIpOrCidr_eq raw

/-- The network of a parsed text. -/
def netOfParsed {raw : String} {p : ParsedCidr} (h : parseIpOrCidr raw = some p) : Net :=
  (netOfText raw).get (by
    rw [parseIpOrCidr_netOfText, Option.map_eq_some_iff] at h
    obtain ⟨n, hn, -⟩ := h
    rw [hn]
    rfl)

theorem netOfText_netOfParsed {raw : String} {p : ParsedCidr} (h : parseIpOrCidr raw = some p) :
    netOfText raw = some (netOfParsed h) := (Option.some_get _).symm

theorem parsedOf_netOfParsed {raw : String} {p : ParsedCidr} (h : parseIpOrCidr raw = some p) :
    p = parsedOf (netOfParsed h) := by
  have h' := h
  rw [parseIpOrCidr_netOfText, netOfText_netOfParsed h] at h'
  exact (Option.some.inj h').symm

/-- Syntax and policy for a ban target, in this order: invalid, subnet not allowed, too broad,
reserved. -/
def parseBanTarget (env : SafetyEnv) (raw : String) (allowCidr : Bool) :
    Except BanTargetError BanTarget :=
  match h : parseIpOrCidr raw with
  | none => .error ⟨.invalid, "Invalid IP address or subnet"⟩
  | some p =>
    let isNetwork := decide (p.plen < p.family.bits)
    let floor := env.banPrefixFloor p.family
    if isNetwork && !allowCidr then
      .error ⟨.cidrNotAllowed, "Subnets are not accepted here: give a single IP address"⟩
    else if p.plen < floor then
      let version := match p.family with | .v4 => 4 | .v6 => 6
      .error ⟨.tooBroad,
        s!"Subnet too broad: the widest bannable network is /{floor} for IPv{version}"⟩
    else if isReservedBanTarget p then .error ⟨.reserved, reservedOrProtectedMessage⟩
    else .ok {
      toParsedCidr := p
      isNetwork := isNetwork
      cidr := if isNetwork then String.ofList (p.address.toList ++ '/' :: Nat.toDigits 10 p.plen)
        else p.address
      net := netOfParsed h
      not_mapped := readTarget_not_mapped (netOfText_netOfParsed h)
      parsed := parsedOf_netOfParsed h }

/-- `findProtectedConflict`: the interface addresses and the other tenants' infrastructure count
only for a global ban. -/
def findProtectedConflict (env : SafetyEnv) (t : ParsedCidr) (global : Bool)
    (tenantId : Option Nat) : Bool :=
  (global && env.interfaces.any fun e => cidrOverlaps e t) ||
  env.origins.any (fun e => cidrOverlaps e t) ||
  env.infra.any fun (e, owner) => (global || tenantId == some owner) && cidrOverlaps e t

/-- `findBanSafetyConflict`: non-public ranges for a global ban, then the protected set. -/
def findBanSafetyConflict (env : SafetyEnv) (t : ParsedCidr) (global : Bool)
    (tenantId : Option Nat) : Option BanTargetErrorCode :=
  if global && isNonPublicTarget t then some .reserved
  else if findProtectedConflict env t global tenantId then some .protectedAddress
  else none

/-- `checkBanTarget` for a global ban. -/
def checkBanTarget (env : SafetyEnv) (raw : String) (allowCidr : Bool) :
    Except BanTargetError BanTarget :=
  match parseBanTarget env raw allowCidr with
  | .error e => .error e
  | .ok t =>
    match findBanSafetyConflict env t.toParsedCidr true none with
    | some code => .error ⟨code, reservedOrProtectedMessage⟩
    | none => .ok t

theorem parseBanTarget_net {env : SafetyEnv} {raw : String} {allowCidr : Bool} {t : BanTarget}
    (h : parseBanTarget env raw allowCidr = .ok t) : netOfText raw = some t.net ∧
      (t.isNetwork = false ↔ t.net.IsHost) ∧ t.cidr = String.ofList t.net.text ∧
      (allowCidr = false → t.net.IsHost) := by
  unfold parseBanTarget at h
  split at h
  · contradiction
  · rename_i p hp
    dsimp only at h
    obtain ⟨net, hnet⟩ : ∃ net, net = netOfParsed hp := ⟨_, rfl⟩
    have hpn : p = parsedOf net := hnet ▸ parsedOf_netOfParsed hp
    have hhost : decide (p.plen < p.family.bits) = false ↔ net.IsHost := by
      have hle : p.plen ≤ p.family.bits := by
        rw [hpn]
        exact net.len_le
      have hiff : net.IsHost ↔ p.plen = p.family.bits := by
        rw [hpn]
        exact Iff.rfl
      rw [hiff, decide_eq_false_iff_not, not_lt]
      constructor
      · exact fun hge => le_antisymm hle hge
      · exact fun he => le_of_eq he.symm
    split at h
    · contradiction
    · rename_i hallow
      split at h
      · contradiction
      · split at h
        · contradiction
        · have ht := Except.ok.inj h
          rw [← ht]
          dsimp only
          rw [← hnet]
          refine ⟨hnet ▸ netOfText_netOfParsed hp, hhost, ?_, ?_⟩
          · rw [Net.text]
            by_cases hh : net.IsHost
            · rw [if_neg (by simpa using hhost.mpr hh), if_pos hh, hpn]
              rfl
            · rw [if_pos (by simpa using mt hhost.mp hh), if_neg hh, hpn]
              simp [parsedOf]
          · intro ha
            rw [ha] at hallow
            exact hhost.mp (by simpa using hallow)

/-- The network of a checked target is the one its text names. -/
theorem checkBanTarget_net {env : SafetyEnv} {raw : String} {allowCidr : Bool} {t : BanTarget}
    (h : checkBanTarget env raw allowCidr = .ok t) : netOfText raw = some t.net ∧
      (t.isNetwork = false ↔ t.net.IsHost) ∧ t.cidr = String.ofList t.net.text ∧
      (allowCidr = false → t.net.IsHost) := by
  unfold checkBanTarget at h
  split at h
  · contradiction
  · rename_i t' ht
    split at h
    · contradiction
    · rw [← Except.ok.inj h]
      exact parseBanTarget_net ht

end Obliguard.Server

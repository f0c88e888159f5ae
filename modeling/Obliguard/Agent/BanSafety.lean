import Mathlib.Data.List.TakeWhile
import Obliguard.Agent.BanEntry
import Obliguard.Agent.Strconv

/-!
# The guard before the firewall

`readBanFloor`, `checkLocked`, `Filter` and `Unsafe` of `agent/bansafety.go`. The addresses that the
agent must keep reachable are read from its system and are an input (`BanSafety.guarded`).
-/

namespace Obliguard.Agent

open Numeral AddrText Text HighBits

/-! ## The floors -/

/-- `readBanFloor` on the value of its variable, empty when it is not set. -/
def readBanFloor (value : String) (deflt lo hi : Nat) : Nat :=
  let raw := goTrim value.toList
  if raw = [] then deflt
  else match atoi raw with
    | none => deflt
    | some n =>
      if byteLength raw > 3 ∨ trimBy (isDigit 10) raw ≠ [] then deflt
      else if n < lo ∨ n > hi then
        let clamped := if n < lo then (lo : Int) else n
        if clamped > hi then hi else clamped.toNat
      else n.toNat

theorem trimBy_eq_nil {p : Char → Bool} {s : List Char} : trimBy p s = [] ↔ s.all p = true := by
  rw [trimBy, List.reverse_eq_nil_iff, List.dropWhile_eq_nil_iff, List.all_eq_true]
  constructor
  · intro h
    have hnil : s.dropWhile p = [] := by
      by_contra hne
      have hhead := List.head_dropWhile_not p hne
      rw [h _ (List.mem_reverse.mpr (List.head_mem hne))] at hhead
      contradiction
    exact List.dropWhile_eq_nil_iff.mp hnil
  · intro h c hc
    exact h c ((List.dropWhile_suffix p).subset (List.mem_reverse.mp hc))

/-! ## The guard -/

/-- `protectedAddr`: an address the agent must keep reachable. -/
structure ProtectedAddr where
  addr : Addr
  /-- `server`, `agent` or `gateway`. -/
  what : String
deriving DecidableEq

structure BanSafety where
  minV4 : Nat
  minV6 : Nat
  /-- `protected`, as it was last read. -/
  guarded : List ProtectedAddr
  /-- What has been logged already. -/
  logged : List String

/-- `newBanSafety` with the values of its two variables. -/
def newBanSafety (envV4 envV6 : String) (guarded : List ProtectedAddr) : BanSafety where
  minV4 := readBanFloor envV4 16 8 32
  minV6 := readBanFloor envV6 48 16 128
  guarded := guarded
  logged := []

/-- `reservedBanRanges`, of which each is a prefix without host bits. -/
def reservedBanRanges : List Net :=
  ["0.0.0.0/8", "127.0.0.0/8", "169.254.0.0/16", "224.0.0.0/4", "240.0.0.0/4", "::/128", "::1/128",
    "fe80::/10", "ff00::/8"].filterMap fun t => (netipParsePrefix t.toList).map NetipPrefix.masked

/-- `Prefix.Overlaps`. -/
def prefixOverlaps (p o : Net) : Bool :=
  if p = o then true
  else if p.family ≠ o.family then false
  else
    let minBits := min p.len o.len
    if minBits = 0 then true
    else clearLow (p.family.bits - minBits) p.addr == clearLow (o.family.bits - minBits) o.addr

/-- Why an entry is refused. -/
inductive Refusal
  | wider (floor : Nat)
  | reserved (range : Net)
  | covers (pa : ProtectedAddr)
deriving DecidableEq

def Refusal.reason : Refusal → String
  | .wider floor => s!"wider than /{floor}"
  | .reserved range => "reserved range " ++ String.ofList (prefixString range)
  | .covers pa => s!"covers the {pa.what} address " ++ String.ofList (addrString pa.addr)

/-- `checkLocked`: `none` when the prefix is safe. -/
def BanSafety.checkLocked (g : BanSafety) (p : Net) : Option Refusal :=
  let floor := if p.family = .v4 then g.minV4 else g.minV6
  if p.len < floor then some (.wider floor)
  else
    match reservedBanRanges.find? fun r => prefixOverlaps r p with
    | some r => some (.reserved r)
    | none => (g.guarded.find? fun pa => decide (pa.addr ∈ p)).map .covers

/-- `banSafetyMaxLogged`. -/
def banSafetyMaxLogged : Nat := 4096

/-- `refuseLocked`, with the lines logged. -/
def BanSafety.refuseLocked (g : BanSafety) (entry reason : String) : BanSafety × List String :=
  let key := entry ++ "|" ++ reason
  if key ∈ g.logged then (g, [])
  else
    let logged := if g.logged.length ≥ banSafetyMaxLogged then [] else g.logged
    ({ g with logged := key :: logged }, [s!"Ban safety: refused {entry} ({reason})"])

/-- What one turn of `Filter` does with an entry: keep it under its key, or refuse it. -/
def BanSafety.judge (g : BanSafety) (raw : String) : Except (String × String) String :=
  match canonicalBanEntry raw with
  | none => .error (String.ofList (goTrim raw.toList), "not an IP address or CIDR")
  | some (k, p) =>
    match g.checkLocked p with
    | some r => .error (k, r.reason)
    | none => .ok k

/-- `Filter` from the entries kept and the lines logged so far. -/
def BanSafety.filterFrom (g : BanSafety) (out lines : List String) :
    List String → List String × BanSafety × List String
  | [] => (out, g, lines)
  | raw :: adds =>
    match g.judge raw with
    | .error (entry, reason) =>
      let refused := g.refuseLocked entry reason
      refused.1.filterFrom out (lines ++ refused.2) adds
    | .ok k => g.filterFrom (if k ∈ out then out else out ++ [k]) lines adds

/-- `Filter` after its refresh: the entries safe to enforce, the guard after it, the lines logged. -/
def BanSafety.filter (g : BanSafety) (adds : List String) : List String × BanSafety × List String :=
  g.filterFrom [] [] adds

theorem prefixOverlaps_iff {p o : Net} : prefixOverlaps p o = true ↔ p.Overlaps o := by
  rw [Net.overlaps_iff]
  unfold prefixOverlaps
  by_cases heq : p = o
  · rw [if_pos heq, heq]
    exact ⟨fun _ => .inl le_rfl, fun _ => rfl⟩
  · rw [if_neg heq]
    by_cases hfam : p.family = o.family
    · rw [if_neg (not_not.mpr hfam)]
      dsimp only
      have hsame : (clearLow (p.family.bits - min p.len o.len) p.addr ==
          clearLow (o.family.bits - min p.len o.len) o.addr) = true ↔
          SameHigh (p.family.bits - min p.len o.len) p.addr o.addr := by
        rw [beq_iff_eq, ← hfam, clearLow_eq_iff]
      have hall : min p.len o.len = 0 → SameHigh (p.family.bits - min p.len o.len) p.addr o.addr := by
        intro hzero
        rw [hzero, Nat.sub_zero, SameHigh, Nat.div_eq_of_lt p.addr_lt, Nat.div_eq_of_lt (hfam ▸ o.addr_lt)]
      have hiff : (if min p.len o.len = 0 then true else
          clearLow (p.family.bits - min p.len o.len) p.addr ==
            clearLow (o.family.bits - min p.len o.len) o.addr) = true ↔
          SameHigh (p.family.bits - min p.len o.len) p.addr o.addr := by
        split
        · rename_i hzero
          exact ⟨fun _ => hall hzero, fun _ => rfl⟩
        · exact hsame
      rw [hiff, Net.le_def, Net.le_def, Net.host, Net.host, ← hfam]
      rcases le_total p.len o.len with hl | hl
      · rw [min_eq_left hl]
        constructor
        · intro h
          exact .inr ⟨rfl, hl, h.symm⟩
        · rintro (⟨-, hl', h⟩ | ⟨-, -, h⟩)
          · rwa [le_antisymm hl hl']
          · exact h.symm
      · rw [min_eq_right hl]
        constructor
        · intro h
          exact .inl ⟨rfl, hl, h⟩
        · rintro (⟨-, -, h⟩ | ⟨-, hl', h⟩)
          · exact h
          · rw [← le_antisymm hl hl'] at h
            exact h.symm
    · rw [if_pos hfam]
      constructor
      · intro h
        contradiction
      · rintro (h | h)
        · exact absurd h.1 hfam
        · exact absurd h.1.symm hfam

end Obliguard.Agent

import Obliguard.Agent.BanEntry
import Obliguard.Server.BanTarget

/-!
# The server and the agents write a target alike

Three canonicalisers have to agree on the text of a ban target: `parseIpOrCidr` with `targetText`
on the server, `canonicalBanEntry` in the agent, and `canon` in the Windows backend. A text the
server delivers is a fixed point of all three (`targetText_fixed`). For the other direction,
`banListKey_eq_of_parse` says that whatever spelling an agent reports, it and the server see the
same key, as long as the text holds none of the two characters that only one of the two languages
trims.
-/

namespace Obliguard.Canonical

open AddrText Text IpValidation Bans Agent

/-- What the server delivers for a target it accepted: reading it back gives the same target, and
both agent canonicalisers keep it, with the same network. -/
theorem targetText_fixed (s : String) (p : ParsedCidr) (h : parseIpOrCidr s = some p) :
    parseIpOrCidr (targetText p) = some p ∧
      ∃ n : Net, n.family = p.family ∧ n.addr = valueOf p ∧ n.len = p.plen ∧
        canonicalBanEntry (targetText p) = some (targetText p, n) ∧
        canon (targetText p) = some (targetText p, n) := by
  obtain ⟨n, hn, -, rfl⟩ := exists_net_of_parse h
  have hcanonical : canonicalBanEntry (String.ofList n.text) = some (String.ofList n.text, n) := by
    rw [canonicalBanEntry_eq, String.toList_ofList, goTrim_text hn, readTarget_text hn]
    rfl
  rw [targetText_parsedOf]
  exact ⟨parseIpOrCidr_text hn, n, rfl, (valueOf_parsedOf n).symm, rfl, hcanonical, canon_text hn⟩

/-- `targetText_fixed` on a mapped subnet with host bits. -/
theorem targetText_fixed_mapped :
    parseIpOrCidr " ::FFFF:1.2.3.4/120" = some ⟨"1.2.3.0", .v4, 24⟩ ∧
      parseIpOrCidr "1.2.3.0/24" = some ⟨"1.2.3.0", .v4, 24⟩ ∧
      ∃ n : Net, n.family = .v4 ∧ n.addr = 0x01020300 ∧ n.len = 24 ∧
        canonicalBanEntry "1.2.3.0/24" = some ("1.2.3.0/24", n) ∧
        canon "1.2.3.0/24" = some ("1.2.3.0/24", n) := by
  have h : parseIpOrCidr " ::FFFF:1.2.3.4/120" = some ⟨"1.2.3.0", .v4, 24⟩ := by decide +kernel
  exact ⟨h, targetText_fixed _ _ h⟩

/-- The key of an entry the server cannot read is its trimmed text, and `none` for a blank one. -/
def plainKey (s : List Char) : Option String := if s = [] then none else some (String.ofList s)

theorem banListKey_eq (s : String) : banListKey s =
    match readTarget (goTrim s.toList) with
    | some n => some (String.ofList n.text)
    | none => plainKey (goTrim s.toList) := by
  rw [banListKey, canonicalBanEntry_eq]
  cases readTarget (goTrim s.toList) <;> rfl

/-- Neither of the characters that only one of the two languages trims. -/
def TrimsAlike (s : String) : Prop := ∀ c ∈ s.toList, c.toNat ≠ 0xfeff ∧ c.toNat ≠ 0x85

instance (s : String) : Decidable (TrimsAlike s) := List.decidableBAll _ _

/-- A reported text that the server can read has the same key on both sides. -/
theorem banListKey_eq_of_parse {s : String} {p : ParsedCidr} (hs : TrimsAlike s)
    (h : parseIpOrCidr s = some p) : banListKey s = some (targetText p) := by
  obtain ⟨n, -, hn, rfl⟩ := exists_net_of_parse h
  rw [banListKey_eq, ← jsTrim_eq_goTrim hs, hn, targetText_parsedOf]

theorem banListKey_eq_of_not_parse {s : String} (hs : TrimsAlike s)
    (h : parseIpOrCidr s = none) : banListKey s = plainKey (goTrim s.toList) := by
  have hn : readTarget (goTrim s.toList) = none := by
    rw [← jsTrim_eq_goTrim hs]
    rwa [parseIpOrCidr_eq, Option.map_eq_none_iff] at h
  rw [banListKey_eq, hn]

end Obliguard.Canonical

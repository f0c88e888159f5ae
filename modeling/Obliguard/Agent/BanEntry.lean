import Obliguard.Base.Target
import Obliguard.Lib.Table

/-!
# Ban entries of the agent

`canonicalBanEntry` and `canonicalBanList` of `agent/firewall.go`, `canon` of
`agent/firewall_wfp_windows.go`, and the part of Go's `net/netip` they use.

A `netip.Addr` is an address with a zone, a `netip.Prefix` an address without one and a length. A
masked prefix is a `Net`. `canonicalBanEntry_eq` reads the canonicaliser of the Linux and BSD
backends: it is `readTarget` on the trimmed text, with the canonical text of the network as its key.
-/

namespace Obliguard.Agent

open Numeral AddrText Text HighBits

/-! ## `net/netip` -/

/-- `netip.Addr`: an address and its zone, empty for none. -/
structure NetipAddr where
  addr : Addr
  zone : List Char

/-- `netip.Prefix`, valid. -/
structure NetipPrefix where
  addr : Addr
  bits : Nat
  bits_le : bits ≤ addr.family.bits

/-- `netip.ParseAddr`; a zone is the text after the first `%` of an IPv6 address. -/
def netipParseAddr (s : List Char) : Option NetipAddr :=
  if '%' ∈ s then
    let zone := (s.dropWhile (· ≠ '%')).tail
    if zone = [] then none
    else (parseAddr (s.takeWhile (· ≠ '%'))).bind fun a =>
      if a.family = .v6 then some ⟨a, zone⟩ else none
  else (parseAddr s).map fun a => ⟨a, []⟩

/-- The text before and after the last `/`. -/
def cutLastSlash (s : List Char) : Option (List Char × List Char) :=
  if '/' ∈ s then
    let after := (s.reverse.takeWhile (· ≠ '/')).reverse
    some (s.take (s.length - after.length - 1), after)
  else none

/-- `strconv.Atoi` on a text without a leading sign or zero. -/
def prefixBits (p : List Char) : Option Nat :=
  if p ≠ [] ∧ p.all (isDigit 10) ∧ (p.length = 1 ∨ p.head? ≠ some '0') then some (ofDigits 10 p)
  else none

/-- `netip.ParsePrefix`; zones are refused. -/
def netipParsePrefix (s : List Char) : Option NetipPrefix :=
  (cutLastSlash s).bind fun (ip, bitsStr) =>
  (netipParseAddr ip).bind fun a =>
    if a.zone ≠ [] then none
    else (prefixBits bitsStr).bind fun bits =>
      if h : bits ≤ a.addr.family.bits then some ⟨a.addr, bits, h⟩ else none

/-- `Addr.Is4In6`. -/
def is4In6 (a : Addr) : Bool := decide (a.family = .v6) && decide (a.value / 2 ^ 32 = 0xffff)

/-- `Addr.Unmap`. -/
def unmap (a : Addr) : Addr :=
  if is4In6 a then ⟨.v4, a.value % 2 ^ 32, a.low_lt⟩ else a

/-- `Prefix.Masked`. -/
def NetipPrefix.masked (p : NetipPrefix) : Net :=
  Net.ofAddr p.addr.family p.addr.value p.bits p.addr.value_lt p.bits_le

/-- `PrefixFrom(a, a.BitLen())`. -/
def hostPrefix (a : Addr) : Net := Net.ofHost a.family a.value a.value_lt

/-- `Addr.String`: RFC 5952, IPv4-mapped addresses with a dotted tail. -/
def addrString (a : Addr) : List Char :=
  if is4In6 a then "::ffff:".toList ++ textV4 (a.value % 2 ^ 32) else a.text

/-- `Prefix.String`. -/
def prefixString (p : Net) : List Char := addrString p.first ++ '/' :: Nat.toDigits 10 p.len

/-! ## `firewall.go` -/

/-- `banEntryKey` renders a masked prefix in canonical ban-entry text. -/
def banEntryKey (p : Net) : String :=
  String.ofList (if p.len = p.family.bits then addrString p.first else prefixString p)

/-- `isHostEntry` reports whether `p` is a single address (/32 or /128). -/
def isHostEntry (p : Net) : Bool := decide (p.len = p.family.bits)

/-- An entry `addr/len`. IPv4-mapped IPv6 is unmapped. -/
def canonicalPrefix (s : List Char) : Option Net :=
  (netipParsePrefix s).bind fun pp =>
    if h4 : is4In6 pp.addr = true then
      if pp.bits < 96 then none
      else
        let p : NetipPrefix := ⟨unmap pp.addr, pp.bits - 96, by
          have := pp.bits_le
          simp only [is4In6, Bool.and_eq_true, decide_eq_true_eq] at h4
          simp only [unmap, is4In6, h4, decide_true, Bool.and_self, if_true, IpFamily.bits] at this ⊢
          omega⟩
        some p.masked
    else some pp.masked

/-- An entry without a length. Zones are refused. -/
def canonicalHost (s : List Char) : Option Net :=
  (netipParseAddr s).bind fun a =>
    if a.zone ≠ [] then none else some (hostPrefix (unmap a.addr))

/-- `canonicalBanEntry` parses an IP or CIDR and returns its canonical text plus the masked
prefix. -/
def canonicalBanEntry (s : String) : Option (String × Net) :=
  let s := goTrim s.toList
  if s = [] then none
  else (if '/' ∈ s then canonicalPrefix s else canonicalHost s).map fun p => (banEntryKey p, p)

/-- The key of one entry of a delta list: canonical if it parses, else the trimmed text, `none` for
a blank one. -/
def banListKey (s : String) : Option String :=
  match canonicalBanEntry s with
  | some (k, _) => some k
  | none =>
    let k := goTrim s.toList
    if k = [] then none else some (String.ofList k)

/-- `canonicalBanList` canonicalizes a delta list. Entries that do not parse are passed through
unchanged so a stale, odd-looking entry can still be removed. -/
def canonicalBanList (l : List String) : List String :=
  distinct (l.filterMap banListKey)

theorem mem_canonicalBanList {l : List String} {k : String} :
    k ∈ canonicalBanList l ↔ ∃ r ∈ l, banListKey r = some k := by
  rw [canonicalBanList, mem_distinct, List.mem_filterMap]

/-! ## `firewall_wfp_windows.go` -/

/-- `keyForPrefix`. -/
def keyForPrefix (p : Net) : String :=
  String.ofList (if p.len = p.family.bits then addrString p.first else prefixString p)

/-- `canon` normalizes an IP or CIDR string into a key and a masked prefix. An IPv4-mapped prefix
stays IPv6, and a zone is dropped. -/
def canon (s : String) : Option (String × Net) :=
  let s := goTrim s.toList
  if s = [] then none
  else
    (if '/' ∈ s then (netipParsePrefix s).map NetipPrefix.masked
      else (netipParseAddr s).map fun a => hostPrefix (unmap a.addr)).map fun p =>
        (keyForPrefix p, p)

/-! ## The canonicalisers against `readTarget` -/

theorem parseAddr_of_mem {s : List Char} {c : Char} (hc : c = '/' ∨ c = '%') (h : c ∈ s) :
    parseAddr s = none := by
  rw [Option.eq_none_iff_forall_ne_some]
  intro a ha
  exact not_isAddrChar hc ((parseAddr_spec ha).1 c h)

theorem netipParseAddr_bind {β : Type} (s : List Char) (f : Addr → Option β) :
    ((netipParseAddr s).bind fun a => if a.zone ≠ [] then none else f a.addr) =
      (parseAddr s).bind f := by
  rw [netipParseAddr]
  split
  · rename_i hpct
    rw [parseAddr_of_mem (Or.inr rfl) hpct, Option.bind_none, Option.bind_eq_none_iff]
    intro a ha
    dsimp only at ha
    split at ha
    · contradiction
    · rename_i hzone
      obtain ⟨b, -, hb⟩ := Option.bind_eq_some_iff.mp ha
      split at hb
      · rw [← Option.some.inj hb, if_pos hzone]
      · contradiction
  · cases parseAddr s with
    | none => rfl
    | some a => simp

theorem cutLastSlash_append {x y : List Char} (hy : '/' ∉ y) :
    cutLastSlash (x ++ '/' :: y) = some (x, y) := by
  have hall : ∀ c ∈ y.reverse, decide (c ≠ '/') = true := by
    intro c hc
    have : c ≠ '/' := fun h => hy (by rw [← h]; simpa using hc)
    simpa using this
  have hafter : ((x ++ '/' :: y).reverse.takeWhile (· ≠ '/')).reverse = y := by
    rw [List.reverse_append, List.reverse_cons, List.append_assoc,
      List.takeWhile_append_of_pos hall]
    simp
  rw [cutLastSlash, if_pos (by simp)]
  simp only [hafter, Option.some.injEq, Prod.mk.injEq, and_true]
  rw [show (x ++ '/' :: y).length - y.length - 1 = x.length by
    simp only [List.length_append, List.length_cons]
    omega]
  exact List.take_left

theorem exists_lastSlash {s : List Char} (h : '/' ∈ s) : ∃ x y, s = x ++ '/' :: y ∧ '/' ∉ y := by
  obtain ⟨y, x, hyx, hy⟩ := List.eq_append_cons_of_mem (List.mem_reverse.mpr h)
  refine ⟨x.reverse, y.reverse, ?_, by simpa using hy⟩
  rw [← List.reverse_reverse s, hyx]
  simp

theorem prefixBits_bind {β : Type} {m : Nat} (hm : m ≤ 128) (p : List Char)
    (f : (b : Nat) → b ≤ m → Option β) :
    ((prefixBits p).bind fun b => if h : b ≤ m then f b h else none) =
      if h : isShortDecimal p = true ∧ ofDigits 10 p ≤ m then f (ofDigits 10 p) h.2 else none := by
  by_cases hle : ofDigits 10 p ≤ m
  · have hshort : (p ≠ [] ∧ p.all (isDigit 10) ∧ (p.length = 1 ∨ p.head? ≠ some '0')) ↔
        isShortDecimal p = true := by
      simp only [isShortDecimal, Bool.and_eq_true, Bool.or_eq_true, decide_eq_true_eq]
      constructor
      · rintro ⟨hne, hall, hz⟩
        have hlen : p.length ≤ 3 := by
          rcases hz with hz | hz
          · omega
          · cases p with
            | nil => simp
            | cons c cs =>
              obtain ⟨d, hd, -⟩ := isDigit_iff.mp (List.all_eq_true.mp hall c (by simp))
              have hpos : 0 < d := by
                rw [Nat.pos_iff_ne_zero]
                rintro rfl
                apply hz
                rw [digitVal] at hd
                split at hd
                · rename_i hc
                  have h1 : 48 ≤ c.toNat := hc.1
                  have h0 : c.toNat = 48 := by
                    have := Option.some.inj hd
                    omega
                  rw [List.head?_cons, ← Char.ofNat_toNat c, h0]
                · split at hd
                  · rename_i hc
                    have h1 : 97 ≤ c.toNat := hc.1
                    have := Option.some.inj hd
                    omega
                  · split at hd
                    · rename_i hc
                      have h1 : 65 ≤ c.toNat := hc.1
                      have := Option.some.inj hd
                      omega
                    · contradiction
              have hpow := pow_le_ofDigits (b := 10) hd hpos cs
              by_contra hlong
              have : 10 ^ 3 ≤ 10 ^ cs.length :=
                Nat.pow_le_pow_right (by omega) (by simp at hlong; omega)
              omega
        exact ⟨⟨⟨List.length_pos_iff.mpr hne, hlen⟩, hall⟩, hz⟩
      · rintro ⟨⟨⟨hpos, -⟩, hall⟩, hz⟩
        exact ⟨List.length_pos_iff.mp hpos, hall, hz⟩
    by_cases hs : isShortDecimal p = true
    · rw [prefixBits, if_pos (hshort.mpr hs), Option.bind_some, dif_pos hle, dif_pos ⟨hs, hle⟩]
    · rw [prefixBits, if_neg fun h => hs (hshort.mp h), Option.bind_none, dif_neg fun h => hs h.1]
  · rw [dif_neg fun h => hle h.2, Option.bind_eq_none_iff]
    intro b hb
    rw [prefixBits] at hb
    split at hb
    · rw [← Option.some.inj hb, dif_neg hle]
    · contradiction

theorem bits_le_128 (f : IpFamily) : f.bits ≤ 128 := by cases f <;> simp [IpFamily.bits]

theorem unmap_masked (a : Addr) (bits : Nat) (hb : bits ≤ a.family.bits)
    (hb' : is4In6 a = true → bits - 96 ≤ (unmap a).family.bits) :
    (if h4 : is4In6 a = true then
      if bits < 96 then none else some (NetipPrefix.masked ⟨unmap a, bits - 96, hb' h4⟩)
    else some (NetipPrefix.masked ⟨a, bits, hb⟩)) = targetOf a bits hb := by
  unfold targetOf
  by_cases h4 : is4In6 a = true
  · have hm : a.family = .v6 ∧ a.value / 2 ^ 32 = 0xffff := by
      simpa only [is4In6, Bool.and_eq_true, decide_eq_true_eq] using h4
    rw [dif_pos h4, dif_pos hm]
    by_cases h96 : 96 ≤ bits
    · rw [if_neg (by omega), if_pos h96]
      simp only [NetipPrefix.masked, unmap, h4, if_true]
    · rw [if_pos (by omega), if_neg h96]
  · have hm : ¬ (a.family = .v6 ∧ a.value / 2 ^ 32 = 0xffff) := by
      simpa only [is4In6, Bool.and_eq_true, decide_eq_true_eq] using h4
    rw [dif_neg h4, dif_neg hm]
    rfl

theorem hostPrefix_unmap (a : Addr) :
    some (hostPrefix (unmap a)) = targetOf a a.family.bits le_rfl := by
  unfold targetOf
  by_cases h4 : is4In6 a = true
  · have hm : a.family = .v6 ∧ a.value / 2 ^ 32 = 0xffff := by
      simpa only [is4In6, Bool.and_eq_true, decide_eq_true_eq] using h4
    have hbits : a.family.bits = 128 := by rw [hm.1]; rfl
    rw [dif_pos hm, if_pos (by omega)]
    simp only [hostPrefix, Net.ofHost, unmap, h4, if_true, hbits]
    rfl
  · have hm : ¬ (a.family = .v6 ∧ a.value / 2 ^ 32 = 0xffff) := by
      simpa only [is4In6, Bool.and_eq_true, decide_eq_true_eq] using h4
    rw [dif_neg hm, unmap, if_neg h4]
    rfl

theorem canonicalHost_eq {s : List Char} (hs : '/' ∉ s) : canonicalHost s = readTarget s := by
  rw [canonicalHost, readTarget, List.splitOn_eq_singleton hs]
  refine (netipParseAddr_bind s fun a => some (hostPrefix (unmap a))).trans ?_
  exact congrArg _ (funext hostPrefix_unmap)

theorem netipParsePrefix_append (x : List Char) {y : List Char} (hy : '/' ∉ y) :
    netipParsePrefix (x ++ '/' :: y) = (parseAddr x).bind fun a =>
      if h : isShortDecimal y = true ∧ ofDigits 10 y ≤ a.family.bits then
        some ⟨a, ofDigits 10 y, h.2⟩
      else none := by
  rw [netipParsePrefix, cutLastSlash_append hy, Option.bind_some]
  refine (netipParseAddr_bind x fun a => (prefixBits y).bind fun bits =>
    if h : bits ≤ a.family.bits then some (NetipPrefix.mk a bits h) else none).trans ?_
  refine congrArg _ (funext fun a => ?_)
  exact prefixBits_bind (bits_le_128 a.family) y fun b h => some (NetipPrefix.mk a b h)

theorem canonicalPrefix_eq {s : List Char} (hs : '/' ∈ s) : canonicalPrefix s = readTarget s := by
  obtain ⟨x, y, rfl, hy⟩ := exists_lastSlash hs
  rw [canonicalPrefix, netipParsePrefix_append x hy, readTarget]
  by_cases hx : '/' ∈ x
  · obtain ⟨u, v, rfl, hv⟩ := exists_lastSlash hx
    rw [parseAddr_of_mem (Or.inl rfl) hx, List.splitOn_append_cons_self,
      List.splitOn_append_cons_self, List.splitOn_eq_singleton hv, List.splitOn_eq_singleton hy]
    rcases hu : u.splitOn '/' with _ | ⟨a, _ | ⟨b, rest⟩⟩
    · simp at hu
    · rfl
    · simp
  · rw [List.splitOn_append_cons_self_of_not_mem hx, List.splitOn_eq_singleton hy,
      Option.bind_assoc]
    refine congrArg _ (funext fun a => ?_)
    by_cases hp : isShortDecimal y = true ∧ ofDigits 10 y ≤ a.family.bits
    · simp only [hp, and_self, dif_pos, Option.bind_some]
      exact unmap_masked a _ hp.2 _
    · rw [dif_neg hp, dif_neg hp]
      rfl

theorem addrString_of_not_mapped {n : Net} (h : ¬ n.IsMapped) :
    addrString n.first = n.first.text := by
  have h4 : ¬ is4In6 n.first = true := by
    simp only [is4In6, Bool.and_eq_true, decide_eq_true_eq]
    exact h
  rw [addrString, if_neg h4]

theorem banEntryKey_eq {n : Net} (h : ¬ n.IsMapped) : banEntryKey n = String.ofList n.text := by
  rw [banEntryKey, Net.text, prefixString, addrString_of_not_mapped h]
  rfl

/-- `canonicalBanEntry` is `readTarget`, with the canonical text as the key. -/
theorem canonicalBanEntry_eq (s : String) : canonicalBanEntry s =
    (readTarget (goTrim s.toList)).map fun n => (String.ofList n.text, n) := by
  rw [canonicalBanEntry]
  generalize goTrim s.toList = t
  have hread : (if '/' ∈ t then canonicalPrefix t else canonicalHost t) = readTarget t := by
    split
    · exact canonicalPrefix_eq (by assumption)
    · exact canonicalHost_eq (by assumption)
  simp only [hread]
  split
  · rename_i hnil
    rw [hnil]
    rfl
  · cases h : readTarget t with
    | none => rfl
    | some n => rw [Option.map_some, Option.map_some, banEntryKey_eq (readTarget_not_mapped h)]

theorem slash_not_mem_text (a : Addr) : '/' ∉ a.text := fun hc =>
  not_isAddrChar (Or.inl rfl) ((parseAddr_spec (parseAddr_text a)).1 '/' hc)

theorem canon_text {n : Net} (h : ¬ n.IsMapped) :
    canon (String.ofList n.text) = some (String.ofList n.text, n) := by
  have hne : n.text ≠ [] := (readTarget_spec (readTarget_text h)).2.2
  have hkey : keyForPrefix n = String.ofList n.text := banEntryKey_eq h
  have hbody : (if '/' ∈ n.text then (netipParsePrefix n.text).map NetipPrefix.masked
      else (netipParseAddr n.text).map fun a => hostPrefix (unmap a.addr)) = some n := by
    by_cases hhost : n.IsHost
    · have htext : n.text = n.first.text := if_pos hhost
      have hpct : '%' ∉ n.first.text := fun hc =>
        not_isAddrChar (Or.inr rfl) ((parseAddr_spec (parseAddr_text n.first)).1 '%' hc)
      rw [htext, if_neg (slash_not_mem_text n.first), netipParseAddr, if_neg hpct, parseAddr_text,
        Option.map_some, Option.map_some, hostPrefix_unmap n.first]
      have hlen : n.first.family.bits = n.len := hhost.symm
      simp only [hlen]
      exact targetOf_first h
    · have htext : n.text = n.first.text ++ '/' :: Nat.toDigits 10 n.len := if_neg hhost
      have hdig : '/' ∉ Nat.toDigits 10 n.len :=
        not_mem_toDigits (by omega) (by omega) _ (by decide)
      have hval : ofDigits 10 (Nat.toDigits 10 n.len) = n.len :=
        ofDigits_toDigits (by omega) (by omega) _
      have hle : n.len ≤ 128 := n.len_le.trans (bits_le_128 n.family)
      rw [htext, if_pos (by simp), netipParsePrefix_append _ hdig, parseAddr_text, Option.bind_some]
      simp only [hval, isShortDecimal_toDigits _ hle, true_and]
      rw [dif_pos (show n.len ≤ n.first.family.bits from n.len_le), Option.map_some]
      exact congrArg some n.ofAddr_self
  rw [canon, String.toList_ofList]
  simp only [goTrim_text h, hne, if_false]
  rw [hbody, Option.map_some, hkey]

end Obliguard.Agent

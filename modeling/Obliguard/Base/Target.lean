import Obliguard.Base.Net
import Obliguard.Lib.AddrText
import Obliguard.Lib.Text

/-!
# Ban targets as texts

`readTarget` reads a trimmed text as a network: an address or `address/length`, where an
IPv4-mapped IPv6 address stands for the IPv4 network it maps. It is the reading that the server and
the agents are meant to share. `Net.text` is the canonical text, the bare address for a single
address and `address/length` otherwise, and `readTarget_text` is the round trip.
-/

namespace Obliguard

open Numeral AddrText Text HighBits

/-! ## Characters and lengths of address texts -/

namespace AddrText

/-- The characters of addresses. -/
def IsAddrChar (c : Char) : Prop := c = '.' ∨ c = ':' ∨ isDigit 16 c = true

theorem isDigit_mono {b b' : Nat} (h : b ≤ b') {c : Char} (hc : isDigit b c = true) :
    isDigit b' c = true := by
  obtain ⟨d, hd, hlt⟩ := isDigit_iff.mp hc
  exact isDigit_iff.mpr ⟨d, hd, by omega⟩

theorem parseV4_isAddrChar {s : List Char} {v : Nat} (h : parseV4 s = some v) :
    ∀ c ∈ s, IsAddrChar c := by
  intro c hc
  rcases parseV4_chars h c hc with rfl | hd
  · exact Or.inl rfl
  · exact Or.inr (Or.inr (isDigit_mono (by omega) hd))

theorem length_intercalate_le {α : Type} (sep : α) {k : Nat} :
    ∀ {ps : List (List α)}, (∀ p ∈ ps, p.length ≤ k) →
      (List.intercalate [sep] ps).length ≤ (k + 1) * ps.length
  | [], _ => by simp
  | [p], h => by
    have := h p (by simp)
    simp
    omega
  | p :: q :: ps, h => by
    have hp := h p (by simp)
    have ih := @length_intercalate_le α sep k (q :: ps) fun r hr => h r (by simp [hr])
    rw [List.intercalate_cons_cons]
    simp only [List.length_append, List.length_cons, List.length_nil] at ih ⊢
    rw [Nat.mul_add (k + 1) (ps.length + 1) 1]
    omega

theorem mapM_octet_length {ps : List (List Char)} {ns : List Nat} (h : ps.mapM octet = some ns) :
    ∀ p ∈ ps, p.length ≤ 3 := by
  induction ps generalizing ns with
  | nil => simp
  | cons p ps ih =>
    simp only [List.mapM_cons, Option.bind_eq_bind, Option.bind_eq_some_iff, Option.pure_def,
      Option.some.injEq] at h
    obtain ⟨n, hn, ms, hms, -⟩ := h
    intro q hq
    rcases List.mem_cons.mp hq with rfl | hq
    · rw [octet] at hn
      split at hn
      · rename_i hp
        simp only [isShortDecimal, Bool.and_eq_true, decide_eq_true_eq] at hp
        exact hp.1.1.1.2
      · contradiction
    · exact ih hms q hq

theorem parseV4_length {s : List Char} {v : Nat} (h : parseV4 s = some v) : s.length ≤ 16 := by
  rw [parseV4] at h
  split at h
  · rename_i hlen
    obtain ⟨ns, hns, -⟩ := Option.map_eq_some_iff.mp h
    have := length_intercalate_le '.' (mapM_octet_length hns)
    rwa [List.intercalate_splitOn, hlen] at this
  · contradiction

theorem hextet_spec {g : List Char} {n : Nat} (h : hextet g = some n) :
    g.length ≤ 4 ∧ ∀ c ∈ g, isDigit 16 c = true := by
  rw [hextet] at h
  split at h
  · rename_i hg
    simp only [isHextet, Bool.and_eq_true, decide_eq_true_eq, List.all_eq_true] at hg
    exact ⟨hg.1.2, hg.2⟩
  · contradiction

theorem lastField_spec {dotted : Bool} {g : List Char} {ns : List Nat}
    (h : lastField dotted g = some ns) :
    (∀ c ∈ g, IsAddrChar c) ∧ g.length ≤ 5 * ns.length + 15 * dotted.toNat ∧ ns.length ≤ 2 := by
  rw [lastField] at h
  split at h
  · rename_i n hn
    have hs := hextet_spec hn
    rw [← Option.some.inj h]
    exact ⟨fun c hc => Or.inr (Or.inr (hs.2 c hc)), by simp only [List.length_singleton]; omega,
      by simp⟩
  · split at h
    · rename_i hdot
      obtain ⟨v, hv, rfl⟩ := Option.map_eq_some_iff.mp h
      have hlen := parseV4_length hv
      refine ⟨parseV4_isAddrChar hv, ?_, by simp⟩
      rw [hdot, length_toGroups, Bool.toNat_true]
      omega
    · contradiction

theorem fieldList_spec {dotted : Bool} {gs : List (List Char)} {ns : List Nat}
    (h : fieldList dotted gs = some ns) :
    (∀ c ∈ List.intercalate [':'] gs, IsAddrChar c) ∧
      (List.intercalate [':'] gs).length ≤ 5 * ns.length + 15 * dotted.toNat := by
  induction gs using fieldList.induct generalizing ns with
  | case1 => simp
  | case2 g =>
    rw [List.intercalate_singleton]
    exact ⟨(lastField_spec h).1, (lastField_spec h).2.1⟩
  | case3 g k gs ih =>
    rw [fieldList] at h
    obtain ⟨n, hn, h⟩ := Option.bind_eq_some_iff.mp h
    obtain ⟨ms, hms, rfl⟩ := Option.map_eq_some_iff.mp h
    obtain ⟨hchars, hlen⟩ := ih hms
    obtain ⟨hglen, hg⟩ := hextet_spec hn
    rw [List.intercalate_cons_cons]
    refine ⟨fun c hc => ?_, ?_⟩
    · rw [List.append_assoc, List.mem_append, List.mem_append, List.mem_singleton] at hc
      rcases hc with hc | rfl | hc
      · exact Or.inr (Or.inr (hg c hc))
      · exact Or.inr (Or.inl rfl)
      · exact hchars c hc
    · simp only [List.length_append, List.length_cons, List.length_nil]
      omega

theorem fields_spec {dotted : Bool} {s : List Char} {ns : List Nat}
    (h : fields dotted s = some ns) :
    (∀ c ∈ s, IsAddrChar c) ∧ s.length ≤ 5 * ns.length + 15 * dotted.toNat := by
  rw [fields] at h
  split at h
  · rename_i hs
    simp [hs]
  · have := fieldList_spec h
    rwa [List.intercalate_splitOn] at this

theorem splitDouble_eq_some {s l r : List Char} (h : splitDouble s = some (l, r)) :
    s = l ++ ':' :: ':' :: r := by
  induction s using splitDouble.induct generalizing l with
  | case1 => simp [splitDouble] at h
  | case2 c => simp [splitDouble] at h
  | case3 a b rest hab =>
    obtain ⟨rfl, rfl⟩ := hab
    simp only [splitDouble, and_self, if_true, Option.some.injEq, Prod.mk.injEq] at h
    rw [← h.1, ← h.2]
    rfl
  | case4 a b rest hab ih =>
    rw [splitDouble, if_neg hab] at h
    obtain ⟨⟨l', r'⟩, hlr, heq⟩ := Option.map_eq_some_iff.mp h
    simp only [Prod.mk.injEq] at heq
    obtain ⟨rfl, rfl⟩ := heq
    rw [ih hlr]
    rfl

theorem parseV6_spec {s : List Char} {v : Nat} (h : parseV6 s = some v) :
    (∀ c ∈ s, IsAddrChar c) ∧ s.length ≤ 57 := by
  rw [parseV6] at h
  split at h
  · obtain ⟨gs, hgs, h⟩ := Option.bind_eq_some_iff.mp h
    split at h
    · rename_i hlen
      have := fields_spec hgs
      rw [Bool.toNat_true] at this
      exact ⟨this.1, by omega⟩
    · contradiction
  · rename_i l r hd
    obtain ⟨ls, hls, h⟩ := Option.bind_eq_some_iff.mp h
    obtain ⟨rs, hrs, h⟩ := Option.bind_eq_some_iff.mp h
    split at h
    · have hl := fields_spec hls
      have hr := fields_spec hrs
      rw [splitDouble_eq_some hd]
      refine ⟨fun c hc => ?_, ?_⟩
      · simp only [List.mem_append, List.mem_cons] at hc
        rcases hc with hc | rfl | rfl | hc
        · exact hl.1 c hc
        · exact Or.inr (Or.inl rfl)
        · exact Or.inr (Or.inl rfl)
        · exact hr.1 c hc
      · rw [Bool.toNat_false] at hl
        rw [Bool.toNat_true] at hr
        simp only [List.length_append, List.length_cons]
        omega
    · contradiction

theorem parseV6_of_no_colon {s : List Char} (h : ':' ∉ s) : parseV6 s = none := by
  rw [parseV6, splitDouble_of_not_mem h]
  simp only [Option.bind_eq_none_iff]
  intro gs hgs
  rw [if_neg]
  rw [fields] at hgs
  split at hgs
  · rw [← Option.some.inj hgs]
    simp
  · rw [List.splitOn_eq_singleton h] at hgs
    have := (lastField_spec hgs).2.2
    omega

theorem parseV6_of_parseV4 {s : List Char} {v : Nat} (h : parseV4 s = some v) :
    parseV6 s = none := by
  apply parseV6_of_no_colon
  intro hc
  rcases parseV4_chars h ':' hc with h | h
  · exact absurd h (by decide)
  · exact absurd h (by decide)

theorem not_isAddrChar {c : Char} (h : c = '/' ∨ c = '%') : ¬ IsAddrChar c := by
  rcases h with rfl | rfl <;> simp only [IsAddrChar] <;> decide

end AddrText

/-! ## Addresses -/

/-- The address a text is, of either family. -/
def parseAddr (s : List Char) : Option Addr :=
  match h4 : parseV4 s with
  | some v => some ⟨.v4, v, parseV4_lt h4⟩
  | none =>
    match h6 : parseV6 s with
    | some v => some ⟨.v6, v, parseV6_lt h6⟩
    | none => none

theorem parseAddr_eq_some {s : List Char} {a : Addr} : parseAddr s = some a ↔
    match a.family with
    | .v4 => parseV4 s = some a.value
    | .v6 => parseV6 s = some a.value := by
  obtain ⟨f, v, hv⟩ := a
  rw [parseAddr]
  split
  · rename_i w h4
    cases f with
    | v4 => simp [h4, Addr.ext_iff]
    | v6 => simp [parseV6_of_parseV4 h4, Addr.ext_iff]
  · rename_i h4
    split
    · rename_i w h6
      cases f with
      | v4 => simp [h4, Addr.ext_iff]
      | v6 => simp [h6, Addr.ext_iff]
    · rename_i h6
      cases f with
      | v4 => simp [h4]
      | v6 => simp [h6]

theorem parseAddr_nil : parseAddr [] = none := by decide

theorem parseAddr_spec {s : List Char} {a : Addr} (h : parseAddr s = some a) :
    (∀ c ∈ s, IsAddrChar c) ∧ s.length ≤ 57 := by
  obtain ⟨f, v, hv⟩ := a
  cases f with
  | v4 =>
    have h4 := parseAddr_eq_some.mp h
    have := parseV4_length h4
    exact ⟨parseV4_isAddrChar h4, by omega⟩
  | v6 => exact parseV6_spec (parseAddr_eq_some.mp h)

/-- The canonical text of an address. -/
def Addr.text (a : Addr) : List Char :=
  match a.family with
  | .v4 => textV4 a.value
  | .v6 => textV6 a.value

theorem parseAddr_text (a : Addr) : parseAddr a.text = some a := by
  obtain ⟨f, v, hv⟩ := a
  rw [parseAddr_eq_some]
  cases f with
  | v4 => exact parseV4_textV4 hv
  | v6 => exact parseV6_textV6 hv

/-! ## Networks -/

namespace Net

/-- An IPv6 network of IPv4-mapped addresses, `::ffff:0:0/96` or inside it. -/
def IsMapped (n : Net) : Prop := n.family = .v6 ∧ n.addr / 2 ^ 32 = 0xffff

instance (n : Net) : Decidable n.IsMapped := inferInstanceAs (Decidable (_ ∧ _))

/-- The canonical text of a network. -/
def text (n : Net) : List Char :=
  if n.IsHost then n.first.text else n.first.text ++ '/' :: Nat.toDigits 10 n.len

end Net

theorem Addr.mapped_len_le {len : Nat} (a : Addr) (hl : len ≤ a.family.bits) (hv6 : a.family = .v6) :
    len - 96 ≤ IpFamily.v4.bits := by
  rw [hv6] at hl
  simp only [IpFamily.bits] at hl ⊢
  omega

/-- The network of the first `len` bits of `a`, an IPv4-mapped address standing for the IPv4
address it maps; `none` for a network that is only partly one of mapped addresses. -/
def targetOf (a : Addr) (len : Nat) (hl : len ≤ a.family.bits) : Option Net :=
  if hm : a.family = .v6 ∧ a.value / 2 ^ 32 = 0xffff then
    if 96 ≤ len then
      some (Net.ofAddr .v4 (a.value % 2 ^ 32) (len - 96) a.low_lt (a.mapped_len_le hl hm.1))
    else none
  else some (Net.ofAddr a.family a.value len a.value_lt hl)

/-- The network a trimmed text names. -/
def readTarget (s : List Char) : Option Net :=
  match s.splitOn '/' with
  | [addr] => (parseAddr addr).bind fun a => targetOf a a.family.bits le_rfl
  | [addr, p] =>
    (parseAddr addr).bind fun a =>
      if h : isShortDecimal p = true ∧ ofDigits 10 p ≤ a.family.bits then
        targetOf a (ofDigits 10 p) h.2
      else none
  | _ => none

theorem clearLow_mapped {k v : Nat} (h : clearLow k v / 2 ^ 32 = 0xffff) :
    k ≤ 32 ∧ v / 2 ^ 32 = 0xffff := by
  have hk : k ≤ 32 := by
    by_contra hk
    have hdvd : 2 ^ 33 ∣ clearLow k v :=
      (Nat.pow_dvd_pow 2 (show 33 ≤ k by omega)).trans (clearLow_dvd k v)
    obtain ⟨m, hm⟩ := hdvd
    rw [hm] at h
    omega
  have hsame : clearLow k v / 2 ^ 32 = v / 2 ^ 32 := (clearLow_sameHigh k v).mono hk
  exact ⟨hk, hsame ▸ h⟩

theorem targetOf_not_mapped {a : Addr} {len : Nat} {hl : len ≤ a.family.bits} {n : Net}
    (h : targetOf a len hl = some n) : ¬ n.IsMapped := by
  rw [targetOf] at h
  split at h
  · split at h
    · rw [← Option.some.inj h]
      simp [Net.IsMapped, Net.ofAddr]
    · contradiction
  · rename_i hm
    rw [← Option.some.inj h]
    intro hmap
    exact hm ⟨hmap.1, (clearLow_mapped hmap.2).2⟩

theorem targetOf_first {n : Net} (h : ¬ n.IsMapped) : targetOf n.first n.len n.len_le = some n := by
  have hneg : ¬ (n.first.family = .v6 ∧ n.first.value / 2 ^ 32 = 0xffff) := h
  unfold targetOf
  rw [dif_neg hneg]
  exact congrArg some n.ofAddr_self

theorem readTarget_not_mapped {s : List Char} {n : Net} (h : readTarget s = some n) :
    ¬ n.IsMapped := by
  rw [readTarget] at h
  split at h
  · obtain ⟨a, _, h⟩ := Option.bind_eq_some_iff.mp h
    exact targetOf_not_mapped h
  · obtain ⟨a, _, h⟩ := Option.bind_eq_some_iff.mp h
    split at h
    · exact targetOf_not_mapped h
    · contradiction
  · contradiction

theorem isShortDecimal_toDigits : ∀ n ≤ 128, isShortDecimal (Nat.toDigits 10 n) = true := by
  decide +kernel

/-- Reading a canonical text gives the network back. -/
theorem readTarget_text {n : Net} (h : ¬ n.IsMapped) : readTarget n.text = some n := by
  have hslash : '/' ∉ n.first.text := fun hc =>
    not_isAddrChar (Or.inl rfl) ((parseAddr_spec (parseAddr_text n.first)).1 '/' hc)
  rw [Net.text]
  split
  · rename_i hhost
    have hlen : n.first.family.bits = n.len := hhost.symm
    rw [readTarget, List.splitOn_eq_singleton hslash]
    simp only [parseAddr_text, Option.bind_some, hlen]
    exact targetOf_first h
  · have hle : n.len ≤ 128 := n.len_le.trans (by cases n.family <;> simp [IpFamily.bits])
    have hdig : '/' ∉ Nat.toDigits 10 n.len :=
      not_mem_toDigits (by omega) (by omega) _ (by decide)
    have hval : ofDigits 10 (Nat.toDigits 10 n.len) = n.len := ofDigits_toDigits (by omega) (by omega) _
    rw [readTarget, List.splitOn_append_cons_self_of_not_mem hslash, List.splitOn_eq_singleton hdig]
    simp only [parseAddr_text, Option.bind_some, hval, isShortDecimal_toDigits _ hle, true_and]
    rw [dif_pos (show n.len ≤ n.first.family.bits from n.len_le)]
    exact targetOf_first h

/-- The characters of targets. -/
def IsTargetChar (c : Char) : Prop := c = '/' ∨ IsAddrChar c

theorem readTarget_spec {s : List Char} {n : Net} (h : readTarget s = some n) :
    (∀ c ∈ s, IsTargetChar c) ∧ s.length ≤ 64 ∧ s ≠ [] := by
  have hjoin : s = List.intercalate ['/'] (s.splitOn '/') := (List.intercalate_splitOn '/').symm
  rw [hjoin]
  rw [readTarget] at h
  split at h
  · rename_i addr hs
    obtain ⟨a, ha, -⟩ := Option.bind_eq_some_iff.mp h
    have hspec := parseAddr_spec ha
    rw [hs, List.intercalate_singleton]
    refine ⟨fun c hc => Or.inr (hspec.1 c hc), by omega, ?_⟩
    rintro rfl
    rw [parseAddr_nil] at ha
    contradiction
  · rename_i addr p hs
    obtain ⟨a, ha, h⟩ := Option.bind_eq_some_iff.mp h
    split at h
    · rename_i hp
      have hspec := parseAddr_spec ha
      have hdig := isDigit_of_isShortDecimal hp.1
      have hplen : p.length ≤ 3 := by
        have := hp.1
        simp only [isShortDecimal, Bool.and_eq_true, decide_eq_true_eq] at this
        exact this.1.1.2
      rw [hs, List.intercalate_cons_cons, List.intercalate_singleton, List.append_assoc]
      refine ⟨fun c hc => ?_, by simp; omega, by simp⟩
      simp only [List.mem_append, List.mem_singleton] at hc
      rcases hc with hc | rfl | hc
      · exact Or.inr (hspec.1 c hc)
      · exact Or.inl rfl
      · exact Or.inr (Or.inr (Or.inr (isDigit_mono (by omega) (hdig c hc))))
    · contradiction
  · contradiction

/-! ## Trimming -/

theorem isTargetChar_lt {c : Char} (h : IsTargetChar c) : 0x20 < c.toNat ∧ c.toNat < 0x80 := by
  rcases h with rfl | rfl | rfl | h
  · decide
  · decide
  · decide
  · obtain ⟨d, hd, -⟩ := isDigit_iff.mp h
    rw [digitVal] at hd
    split at hd
    · rename_i hc
      have h1 : 48 ≤ c.toNat := hc.1
      have h2 : c.toNat ≤ 57 := hc.2
      omega
    · split at hd
      · rename_i hc
        have h1 : 97 ≤ c.toNat := hc.1
        have h2 : c.toNat ≤ 102 := hc.2
        omega
      · split at hd
        · rename_i hc
          have h1 : 65 ≤ c.toNat := hc.1
          have h2 : c.toNat ≤ 70 := hc.2
          omega
        · contradiction

theorem isTargetChar_not_space {c : Char} (h : IsTargetChar c) :
    isJsSpace c = false ∧ isGoSpace c = false := by
  have := isTargetChar_lt h
  have hshared : sharedSpace c.toNat = false := by
    simp only [sharedSpace, Bool.or_eq_false_iff, Bool.and_eq_false_iff, decide_eq_false_iff_not,
      beq_eq_false_iff_ne]
    omega
  simp only [isJsSpace, isGoSpace, hshared, Bool.false_or, beq_eq_false_iff_ne]
  omega

theorem jsTrim_text {n : Net} (h : ¬ n.IsMapped) : jsTrim n.text = n.text :=
  trimBy_eq_self fun c hc =>
    (isTargetChar_not_space ((readTarget_spec (readTarget_text h)).1 c hc)).1

theorem goTrim_text {n : Net} (h : ¬ n.IsMapped) : goTrim n.text = n.text :=
  trimBy_eq_self fun c hc =>
    (isTargetChar_not_space ((readTarget_spec (readTarget_text h)).1 c hc)).2

theorem Net.text_injective {m n : Net} (hm : ¬ m.IsMapped) (hn : ¬ n.IsMapped)
    (h : m.text = n.text) : m = n := by
  have := readTarget_text hm
  rw [h, readTarget_text hn] at this
  exact (Option.some.inj this).symm

end Obliguard

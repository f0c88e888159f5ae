import Obliguard.Base.Target

/-!
# PostgreSQL `inet` values

An `inet` is an address with a mask length; unlike a network it may carry host bits. `contains` is
the operator `>>=`, `overlaps` the operator `&&`, and `=` compares address and length. `text` is the
output the driver returns: the length is left out for a full mask, and two kinds of IPv6 addresses
are written with a dotted tail.
-/

namespace Obliguard

open Numeral AddrText Text HighBits

/-- A PostgreSQL `inet`. -/
@[ext] structure Inet where
  family : IpFamily
  addr : Nat
  masklen : Nat
  addr_lt : addr < 2 ^ family.bits
  masklen_le : masklen ≤ family.bits

instance : DecidableEq Inet := fun a b =>
  decidable_of_iff (a.family = b.family ∧ a.addr = b.addr ∧ a.masklen = b.masklen) Inet.ext_iff.symm

namespace Inet

/-- The network of an `inet`. -/
def net (i : Inet) : Net := Net.ofAddr i.family i.addr i.masklen i.addr_lt i.masklen_le

/-- The address of an `inet`, without its mask: `host(i)`. -/
def host (i : Inet) : Addr := ⟨i.family, i.addr, i.addr_lt⟩

/-- `a >>= b`. -/
def contains (a b : Inet) : Bool :=
  decide (a.family = b.family) && decide (a.masklen ≤ b.masklen) &&
    decide (SameHigh (a.family.bits - a.masklen) a.addr b.addr)

/-- `a && b`. -/
def overlaps (a b : Inet) : Bool :=
  decide (a.family = b.family) &&
    decide (SameHigh (a.family.bits - min a.masklen b.masklen) a.addr b.addr)

/-- `set_masklen(i, l)`; the address is kept. -/
def setMasklen (i : Inet) (l : Nat) (hl : l ≤ i.family.bits) : Inet :=
  ⟨i.family, i.addr, l, i.addr_lt, hl⟩

/-- The `inet` of a network. -/
def ofNet (n : Net) : Inet := ⟨n.family, n.addr, n.len, n.addr_lt, n.len_le⟩

/-- The `inet` of one address. -/
def ofAddr (a : Addr) : Inet := ⟨a.family, a.value, a.family.bits, a.value_lt, a.full_mask⟩

@[simp] theorem net_ofNet (n : Net) : (ofNet n).net = n := n.ofAddr_self

theorem sameHigh_net {k : Nat} {i : Inet} (hk : i.family.bits - i.masklen ≤ k) :
    SameHigh k i.net.addr i.addr := (clearLow_sameHigh _ _).mono hk

theorem contains_iff {a b : Inet} : a.contains b = true ↔ b.net ≤ a.net := by
  simp only [contains, Bool.and_eq_true, decide_eq_true_eq, Net.le_def]
  show _ ↔ b.family = a.family ∧ a.masklen ≤ b.masklen ∧
    SameHigh (a.family.bits - a.masklen) b.net.addr a.net.addr
  constructor
  · rintro ⟨⟨hf, hl⟩, h⟩
    refine ⟨hf.symm, hl, ?_⟩
    exact (sameHigh_net (by rw [← hf]; omega)).trans (h.symm.trans (sameHigh_net le_rfl).symm)
  · rintro ⟨hf, hl, h⟩
    refine ⟨⟨hf.symm, hl⟩, ?_⟩
    exact ((sameHigh_net le_rfl).symm.trans h.symm).trans (sameHigh_net (by rw [hf]; omega))

theorem overlaps_iff {a b : Inet} : a.overlaps b = true ↔ a.net ≤ b.net ∨ b.net ≤ a.net := by
  rw [← contains_iff, ← contains_iff]
  simp only [overlaps, contains, Bool.and_eq_true, decide_eq_true_eq]
  constructor
  · rintro ⟨hf, h⟩
    rcases le_total a.masklen b.masklen with hl | hl
    · rw [min_eq_left hl] at h
      exact Or.inr ⟨⟨hf, hl⟩, h⟩
    · rw [min_eq_right hl, hf] at h
      exact Or.inl ⟨⟨hf.symm, hl⟩, h.symm⟩
  · rintro (⟨⟨hf, hl⟩, h⟩ | ⟨⟨hf, hl⟩, h⟩)
    · exact ⟨hf.symm, by rw [min_eq_right hl, ← hf]; exact h.symm⟩
    · exact ⟨hf, by rw [min_eq_left hl]; exact h⟩

/-! ## Text -/

/-- The IPv6 addresses PostgreSQL writes with a dotted tail: `::a.b.c.d` and `::ffff:a.b.c.d`. -/
def dottedTail (v : Nat) : Option (List Char) :=
  if v / 2 ^ 32 = 0 ∧ v / 2 ^ 16 % 2 ^ 16 ≠ 0 then some "::".toList
  else if v / 2 ^ 32 = 0xffff then some "::ffff:".toList
  else none

/-- The address part of the text of an `inet`. -/
def addrText (a : Addr) : List Char :=
  match a.family with
  | .v4 => textV4 a.value
  | .v6 =>
    match dottedTail a.value with
    | some start => start ++ textV4 (a.value % 2 ^ 32)
    | none => textV6 a.value

/-- `i::text`, which always writes the length. -/
def castText (i : Inet) : List Char := addrText i.host ++ '/' :: Nat.toDigits 10 i.masklen

/-- The text of an `inet`. -/
def text (i : Inet) : List Char :=
  if i.masklen = i.family.bits then addrText i.host
  else addrText i.host ++ '/' :: Nat.toDigits 10 i.masklen

theorem dot_mem_textV4 (v : Nat) : '.' ∈ textV4 v := by
  simp [textV4, toGroups, List.intercalate_cons_cons]

theorem colon_not_mem_textV4 {v : Nat} (hv : v < 2 ^ 32) : ':' ∉ textV4 v := by
  intro hc
  rcases parseV4_chars (parseV4_textV4 hv) ':' hc with h | h
  · exact absurd h (by decide)
  · exact absurd h (by decide)

theorem lastField_textV4 {v : Nat} (hv : v < 2 ^ 32) :
    lastField true (textV4 v) = some [v / 2 ^ 16, v % 2 ^ 16] := by
  have hhex : hextet (textV4 v) = none := by
    rw [hextet, if_neg]
    intro h
    simp only [isHextet, Bool.and_eq_true, List.all_eq_true] at h
    have := h.2 '.' (dot_mem_textV4 v)
    rw [not_digit_dot] at this
    contradiction
  have hdiv : v / 2 ^ 16 % 2 ^ 16 = v / 2 ^ 16 := Nat.mod_eq_of_lt (by omega)
  rw [lastField, hhex, parseV4_textV4 hv]
  simp only [if_true, Option.map_some, toGroups, List.nil_append, List.singleton_append, hdiv]

theorem parseV6_double (r : List Char) : parseV6 (':' :: ':' :: r) =
    (fields true r).bind fun rs =>
      if rs.length < 8 then some (ofGroups 16 (List.replicate (8 - rs.length) 0 ++ rs))
      else none := by
  simp [parseV6, splitDouble, fields]

theorem parseV6_compatible {w : Nat} (hw : w < 2 ^ 32) :
    parseV6 ("::".toList ++ textV4 w) = some w := by
  have hne : textV4 w ≠ [] := List.ne_nil_of_mem (dot_mem_textV4 w)
  have hfields : fields true (textV4 w) = some [w / 2 ^ 16, w % 2 ^ 16] := by
    rw [fields, if_neg hne, List.splitOn_eq_singleton (colon_not_mem_textV4 hw), fieldList,
      lastField_textV4 hw]
  refine (parseV6_double (textV4 w)).trans ?_
  simp only [hfields, Option.bind_some, List.length_cons, List.length_nil]
  rw [if_pos (by omega)]
  simp [ofGroups]
  omega

theorem parseV6_mapped {w : Nat} (hw : w < 2 ^ 32) :
    parseV6 ("::ffff:".toList ++ textV4 w) = some (0xffff * 2 ^ 32 + w) := by
  have hfields : fields true ("ffff".toList ++ ':' :: textV4 w) =
      some [0xffff, w / 2 ^ 16, w % 2 ^ 16] := by
    have hhex : hextet "ffff".toList = some 0xffff := by decide
    rw [fields, if_neg (by simp), List.splitOn_append_cons_self_of_not_mem (by decide),
      List.splitOn_eq_singleton (colon_not_mem_textV4 hw), fieldList, fieldList,
      lastField_textV4 hw, hhex]
    rfl
  refine (parseV6_double ("ffff".toList ++ ':' :: textV4 w)).trans ?_
  simp only [hfields, Option.bind_some, List.length_cons, List.length_nil]
  rw [if_pos (by omega)]
  simp [ofGroups]
  omega

theorem parseAddr_addrText (a : Addr) : parseAddr (addrText a) = some a := by
  obtain ⟨f, v, hv⟩ := a
  cases f with
  | v4 => exact parseAddr_text ⟨.v4, v, hv⟩
  | v6 =>
    have hlow : v % 2 ^ 32 < 2 ^ 32 := Nat.mod_lt _ (by norm_num)
    have hsplit := Nat.div_add_mod v (2 ^ 32)
    rw [addrText]
    simp only [dottedTail]
    split
    · rename_i start hstart
      rw [parseAddr_eq_some]
      show parseV6 _ = some v
      split at hstart
      · rename_i h0
        rw [← Option.some.inj hstart, parseV6_compatible hlow]
        exact congrArg some (by omega)
      · split at hstart
        · rename_i hm
          rw [← Option.some.inj hstart, parseV6_mapped hlow]
          exact congrArg some (by omega)
        · contradiction
    · exact parseAddr_text ⟨.v6, v, hv⟩

theorem slash_not_mem_addrText (a : Addr) : '/' ∉ addrText a := fun hc =>
  not_isAddrChar (Or.inl rfl) ((parseAddr_spec (parseAddr_addrText a)).1 '/' hc)

theorem readTarget_addrText_len (a : Addr) {l : Nat} (hl : l ≤ a.family.bits) :
    readTarget (addrText a ++ '/' :: Nat.toDigits 10 l) = targetOf a l hl := by
  have hle : l ≤ 128 := hl.trans (by cases a.family <;> simp [IpFamily.bits])
  have hdig : '/' ∉ Nat.toDigits 10 l := not_mem_toDigits (by omega) (by omega) _ (by decide)
  have hval : ofDigits 10 (Nat.toDigits 10 l) = l := ofDigits_toDigits (by omega) (by omega) _
  rw [readTarget, List.splitOn_append_cons_self_of_not_mem (slash_not_mem_addrText a),
    List.splitOn_eq_singleton hdig]
  simp only [parseAddr_addrText, Option.bind_some, hval, isShortDecimal_toDigits _ hle, true_and]
  rw [dif_pos hl]

theorem readTarget_addrText (a : Addr) :
    readTarget (addrText a) = targetOf a a.family.bits le_rfl := by
  rw [readTarget, List.splitOn_eq_singleton (slash_not_mem_addrText a)]
  simp only [parseAddr_addrText, Option.bind_some]

/-- The text of an `inet` reads as its network. -/
theorem readTarget_text (i : Inet) : readTarget i.text = targetOf i.host i.masklen i.masklen_le := by
  rw [text]
  split
  · rename_i h
    rw [readTarget_addrText]
    have hb : i.host.family.bits = i.masklen := h.symm
    simp only [hb]
  · exact readTarget_addrText_len i.host i.masklen_le

theorem readTarget_castText (i : Inet) :
    readTarget i.castText = targetOf i.host i.masklen i.masklen_le :=
  readTarget_addrText_len i.host i.masklen_le

theorem isTargetChar_addrText (a : Addr) : ∀ c ∈ addrText a, IsTargetChar c := fun c hc =>
  Or.inr ((parseAddr_spec (parseAddr_addrText a)).1 c hc)

theorem isTargetChar_toDigits (l : Nat) : ∀ c ∈ Nat.toDigits 10 l, IsTargetChar c := fun c hc =>
  Or.inr (Or.inr (Or.inr (isDigit_mono (by omega)
    (isDigit_of_mem_toDigits (by omega) (by omega) l c hc))))

end Inet

end Obliguard

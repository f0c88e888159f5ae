import Obliguard.Base.Target
import Obliguard.Server.Converters

/-!
# What `parseIpOrCidr` accepts

`parseIpOrCidr_eq` reads the whole parser: it is `readTarget` on the trimmed text. The checks that
come before the address is read (empty, longer than 64, white space, a zone) refuse nothing that
`readTarget` would accept. The comparisons `cidrOverlaps` and `cidrContains` of parsed values are
the overlap and the inclusion of their networks.
-/

namespace Obliguard.IpValidation

open Numeral AddrText Text HighBits

/-- The parsed form of a network. -/
def parsedOf (n : Net) : ParsedCidr := ⟨String.ofList n.first.text, n.family, n.len⟩

theorem render_eq (a : Addr) : render a.family a.value = a.text := by
  obtain ⟨f, v, hv⟩ := a
  cases f with
  | v4 => exact renderV4_eq v
  | v6 => exact renderV6_eq v

theorem and_maskOf {f : IpFamily} {v : Nat} (hv : v < 2 ^ f.bits) (l : Nat) :
    v &&& maskOf f l = clearLow (f.bits - l) v := by
  rw [maskOf]
  split
  · rename_i h
    rw [h, Nat.sub_zero]
    exact and_zero_eq_clearLow hv
  · rw [Nat.one_shiftLeft]
    exact and_highMask hv

theorem render_masked {f : IpFamily} {v l : Nat} (hv : v < 2 ^ f.bits) (hl : l ≤ f.bits) :
    (⟨String.ofList (render f (v &&& maskOf f l)), f, l⟩ : ParsedCidr) =
      parsedOf (Net.ofAddr f v l hv hl) := by
  rw [and_maskOf hv l]
  exact congrArg (fun t => (⟨String.ofList t, f, l⟩ : ParsedCidr))
    (render_eq (Net.ofAddr f v l hv hl).first)

theorem foldMapped_eq (a : Addr) {l : Nat} (hl : l ≤ a.family.bits) :
    ((foldMapped a.family a.value l).map fun (family, value, plen) =>
      (⟨String.ofList (render family (value &&& maskOf family plen)), family, plen⟩ : ParsedCidr)) =
      (targetOf a l hl).map parsedOf := by
  rw [foldMapped, targetOf, Nat.shiftRight_eq_div_pow]
  by_cases hm : a.family = .v6 ∧ a.value / 2 ^ 32 = 0xffff
  · rw [if_pos hm, dif_pos hm]
    by_cases h96 : 96 ≤ l
    · have hand : a.value &&& 0xffffffff = a.value % 2 ^ 32 := Nat.and_two_pow_sub_one_eq_mod _ 32
      have hl32 : l - 96 ≤ IpFamily.v4.bits := by
        simp only [hm.1, IpFamily.bits] at hl ⊢
        omega
      rw [if_neg (by omega), if_pos h96, hand, Option.map_some, Option.map_some]
      exact congrArg some (render_masked (f := .v4) (Nat.mod_lt _ (by norm_num)) hl32)
    · rw [if_pos (by omega), if_neg h96]
      rfl
  · rw [if_neg hm, dif_neg hm, Option.map_some, Option.map_some]
    exact congrArg some (render_masked a.value_lt hl)

theorem isIP_bind {β : Type} (s : List Char) (g : IpFamily → Option Nat)
    (k : IpFamily → Nat → Nat → Option β) :
    ((isIP s).bind fun fam => (g fam).bind fun plen =>
      (match fam with | .v4 => v4ToBigInt s | .v6 => v6ToBigInt s).bind fun value =>
        k fam value plen) =
      (parseAddr s).bind fun a => (g a.family).bind fun plen => k a.family a.value plen := by
  cases h4 : parseV4 s with
  | some v =>
    have ha : parseAddr s = some ⟨.v4, v, parseV4_lt h4⟩ := parseAddr_eq_some.mpr h4
    simp [isIP, h4, ha, v4ToBigInt_eq]
  | none =>
    cases h6 : parseV6 s with
    | some v =>
      have ha : parseAddr s = some ⟨.v6, v, parseV6_lt h6⟩ := parseAddr_eq_some.mpr h6
      simp [isIP, h4, h6, ha, v6ToBigInt_eq]
    | none =>
      have ha : parseAddr s = none := by
        rw [Option.eq_none_iff_forall_ne_some]
        intro a ha
        rw [parseAddr_eq_some] at ha
        split at ha
        · rw [h4] at ha
          contradiction
        · rw [h6] at ha
          contradiction
      simp [isIP, h4, h6, ha]

theorem not_isTargetChar_percent : ¬ IsTargetChar '%' := by
  rintro (h | h)
  · exact absurd h (by decide)
  · exact not_isAddrChar (Or.inr rfl) h

theorem guards_of_readTarget {s : List Char} {n : Net} (h : readTarget s = some n) :
    ¬ (s = [] ∨ utf16Length s > 64 ∨ s.any isJsSpace ∨ '%' ∈ s) := by
  obtain ⟨hchars, hlen, hne⟩ := readTarget_spec h
  rintro (h | h | h | h)
  · exact hne h
  · rw [utf16Length_eq_length fun c hc => (isTargetChar_lt (hchars c hc)).2.trans (by norm_num)] at h
    omega
  · obtain ⟨c, hc, hsp⟩ := List.any_eq_true.mp h
    rw [(isTargetChar_not_space (hchars c hc)).1] at hsp
    contradiction
  · exact not_isTargetChar_percent (hchars '%' h)

theorem parseIpOrCidr_eq (raw : String) :
    parseIpOrCidr raw = (readTarget (jsTrim raw.toList)).map parsedOf := by
  rw [parseIpOrCidr]
  generalize jsTrim raw.toList = s
  simp only
  split
  · rename_i hguard
    cases h : readTarget s with
    | none => rfl
    | some n => exact absurd hguard (guards_of_readTarget h)
  · rw [readTarget]
    rcases hs : s.splitOn '/' with _ | ⟨addr, _ | ⟨p, _ | ⟨q, rest⟩⟩⟩
    · rfl
    · simp only [List.length_nil, gt_iff_lt, Nat.not_lt_zero, if_false, Option.map_bind]
      refine (isIP_bind addr (readPrefix · []) _).trans (congrArg _ (funext fun a => ?_))
      exact foldMapped_eq a le_rfl
    · simp only [List.length_singleton, gt_iff_lt, Nat.lt_irrefl, if_false, Option.map_bind]
      refine (isIP_bind addr (readPrefix · [p]) _).trans (congrArg _ (funext fun a => ?_))
      by_cases hp : isShortDecimal p = true
      · by_cases hle : ofDigits 10 p ≤ a.family.bits
        · simp only [readPrefix, octetRe, hp, hle, Bool.not_true, Bool.false_eq_true, if_false,
            gt_iff_lt, not_lt.mpr hle, Option.bind_some, true_and, dif_pos, Function.comp_apply]
          exact foldMapped_eq a hle
        · simp [readPrefix, hp, hle]
      · simp [readPrefix, hp]
    · simp

theorem exists_net_of_parse {raw : String} {p : ParsedCidr} (h : parseIpOrCidr raw = some p) :
    ∃ n : Net, ¬ n.IsMapped ∧ readTarget (jsTrim raw.toList) = some n ∧ p = parsedOf n := by
  rw [parseIpOrCidr_eq] at h
  obtain ⟨n, hn, rfl⟩ := Option.map_eq_some_iff.mp h
  exact ⟨n, readTarget_not_mapped hn, hn, rfl⟩

theorem parseIpOrCidr_text {n : Net} (h : ¬ n.IsMapped) :
    parseIpOrCidr (String.ofList n.text) = some (parsedOf n) := by
  rw [parseIpOrCidr_eq, String.toList_ofList, jsTrim_text h, readTarget_text h]
  rfl

/-! ## Comparisons -/

theorem valueOf_parsedOf (n : Net) : valueOf (parsedOf n) = n.addr := by
  have h := parseAddr_eq_some.mp (parseAddr_text n.first)
  rw [valueOf]
  simp only [parsedOf, String.toList_ofList, v4ToBigInt_eq, v6ToBigInt_eq]
  have hf : n.first.family = n.family := rfl
  rw [hf] at h
  cases hfam : n.family with
  | v4 =>
    rw [hfam] at h
    simp only [h, Option.getD_some]
    rfl
  | v6 =>
    rw [hfam] at h
    simp only [h, Option.getD_some]
    rfl

theorem cidrOverlaps_parsedOf (m n : Net) :
    cidrOverlaps (parsedOf m) (parsedOf n) = true ↔ m ≤ n ∨ n ≤ m := by
  rw [cidrOverlaps, valueOf_parsedOf, valueOf_parsedOf]
  by_cases hf : m.family = n.family
  · have hf' : ¬ (parsedOf m).family ≠ (parsedOf n).family := not_not.mpr hf
    rw [if_neg hf']
    have hm : ∀ l, (m.addr &&& maskOf m.family l == n.addr &&& maskOf m.family l) = true ↔
        SameHigh (m.family.bits - l) m.addr n.addr := by
      intro l
      rw [beq_iff_eq, and_maskOf m.addr_lt l, and_maskOf (hf ▸ n.addr_lt) l, clearLow_eq_iff]
    show (m.addr &&& maskOf m.family (min m.len n.len) ==
      n.addr &&& maskOf m.family (min m.len n.len)) = true ↔ _
    rw [hm, Net.le_def, Net.le_def, Net.host, Net.host, ← hf]
    rcases le_total m.len n.len with hl | hl
    · rw [min_eq_left hl]
      constructor
      · intro h
        exact Or.inr ⟨rfl, hl, h.symm⟩
      · rintro (⟨-, hl', h⟩ | ⟨-, -, h⟩)
        · rwa [le_antisymm hl hl']
        · exact h.symm
    · rw [min_eq_right hl]
      constructor
      · intro h
        exact Or.inl ⟨rfl, hl, h⟩
      · rintro (⟨-, -, h⟩ | ⟨-, hl', h⟩)
        · exact h
        · rw [← le_antisymm hl hl'] at h
          exact h.symm
  · have hf' : (parsedOf m).family ≠ (parsedOf n).family := hf
    rw [if_pos hf']
    simp only [Bool.false_eq_true, false_iff]
    rintro (h | h)
    · exact hf h.1
    · exact hf h.1.symm

theorem cidrContains_parsedOf (m n : Net) :
    cidrContains (parsedOf m) (parsedOf n) = true ↔ n ≤ m := by
  rw [cidrContains, Bool.and_eq_true, decide_eq_true_eq, cidrOverlaps_parsedOf]
  constructor
  · rintro ⟨hl, h | h⟩
    · have hl' : m.len = n.len := le_antisymm hl h.2.1
      exact (Net.eq_of_le_of_len h hl').ge
    · exact h
  · intro h
    exact ⟨h.2.1, Or.inr h⟩

end Obliguard.IpValidation

import Obliguard.Lib.Numeral

/-!
# Textual forms of internet addresses

The address grammar that address libraries share: dotted decimal without leading zeros
(`parseV4`), and the colon-separated form of RFC 4291 with at most one `::` and an optional dotted
tail (`parseV6`). `textV4` and `textV6` are the canonical renderings, `textV6` that of RFC 5952
(lower case, the leftmost longest run of at least two zero fields written `::`).

`parseV4_textV4` and `parseV6_textV6` are the round trips. The case analysis of `textV6` is on the
pattern of zero fields only, so its facts are decided over the `2 ^ 8` patterns.
-/

namespace Obliguard.AddrText

open Numeral

/-! ## Dotted decimal -/

/-- A decimal number of at most three digits without a leading zero, `0|[1-9][0-9]{0,2}`. -/
def isShortDecimal (p : List Char) : Bool :=
  decide (1 ≤ p.length) && decide (p.length ≤ 3) && p.all (isDigit 10) &&
    (decide (p.length = 1) || decide (p.head? ≠ some '0'))

/-- One field of a dotted address. -/
def octet (p : List Char) : Option Nat :=
  if isShortDecimal p ∧ ofDigits 10 p ≤ 255 then some (ofDigits 10 p) else none

/-- The address written in dotted decimal. -/
def parseV4 (s : List Char) : Option Nat :=
  if (s.splitOn '.').length = 4 then ((s.splitOn '.').mapM octet).map (ofGroups 8) else none

/-- The dotted decimal form of a 32-bit address. -/
def textV4 (v : Nat) : List Char :=
  List.intercalate ['.'] ((toGroups 8 4 v).map (Nat.toDigits 10))

theorem octet_lt {p : List Char} {n : Nat} (h : octet p = some n) : n < 2 ^ 8 := by
  rw [octet] at h
  split at h
  · rename_i hp
    have := Option.some.inj h
    omega
  · contradiction

theorem octet_toDigits : ∀ n < 256, octet (Nat.toDigits 10 n) = some n := by
  decide +kernel

theorem mapM_octet_lt {ps : List (List Char)} {ns : List Nat} (h : ps.mapM octet = some ns) :
    ∀ n ∈ ns, n < 2 ^ 8 := by
  induction ps generalizing ns with
  | nil => simp at h; simp [h]
  | cons p ps ih =>
    simp only [List.mapM_cons, Option.bind_eq_bind, Option.bind_eq_some_iff, Option.pure_def,
      Option.some.injEq] at h
    obtain ⟨n, hn, ms, hms, rfl⟩ := h
    intro m hm
    rcases List.mem_cons.mp hm with rfl | hm
    · exact octet_lt hn
    · exact ih hms m hm

theorem mapM_eq_some_length {α β : Type} {f : α → Option β} {as : List α} {bs : List β}
    (h : as.mapM f = some bs) : bs.length = as.length := by
  induction as generalizing bs with
  | nil => simp at h; simp [h]
  | cons a as ih =>
    simp only [List.mapM_cons, Option.bind_eq_bind, Option.bind_eq_some_iff, Option.pure_def,
      Option.some.injEq] at h
    obtain ⟨b, _, cs, hcs, rfl⟩ := h
    simp [ih hcs]

theorem mapM_map_eq_some {α β : Type} {f : α → β} {g : β → Option α} {as : List α}
    (h : ∀ a ∈ as, g (f a) = some a) : (as.map f).mapM g = some as := by
  induction as with
  | nil => rfl
  | cons a as ih =>
    simp [h a (by simp), ih (fun x hx => h x (by simp [hx]))]

theorem parseV4_lt {s : List Char} {v : Nat} (h : parseV4 s = some v) : v < 2 ^ 32 := by
  rw [parseV4] at h
  split at h
  · rename_i hlen
    obtain ⟨ns, hns, rfl⟩ := Option.map_eq_some_iff.mp h
    have hb := ofGroups_lt 8 ns (mapM_octet_lt hns)
    rwa [mapM_eq_some_length hns, hlen] at hb
  · contradiction

theorem not_digit_dot : isDigit 16 '.' = false := by decide
theorem not_digit_colon : isDigit 16 ':' = false := by decide

theorem splitOn_textV4 (v : Nat) :
    (textV4 v).splitOn '.' = (toGroups 8 4 v).map (Nat.toDigits 10) := by
  apply List.splitOn_intercalate
  · intro l hl
    obtain ⟨n, _, rfl⟩ := List.mem_map.mp hl
    exact not_mem_toDigits (by omega) (by omega) n not_digit_dot
  · simp [toGroups]

theorem parseV4_textV4 {v : Nat} (hv : v < 2 ^ 32) : parseV4 (textV4 v) = some v := by
  have hoct : ((toGroups 8 4 v).map (Nat.toDigits 10)).mapM octet = some (toGroups 8 4 v) :=
    mapM_map_eq_some fun n hn => octet_toDigits n (toGroups_lt 8 4 v n hn)
  rw [parseV4, splitOn_textV4, if_pos (by simp), hoct, Option.map_some, ofGroups_toGroups 8 4 v hv]

theorem isDigit_of_isShortDecimal {p : List Char} (h : isShortDecimal p = true) :
    ∀ c ∈ p, isDigit 10 c = true := by
  simp only [isShortDecimal, Bool.and_eq_true, List.all_eq_true] at h
  exact h.1.2

theorem isDigit_of_mapM_octet {ps : List (List Char)} {ns : List Nat}
    (h : ps.mapM octet = some ns) : ∀ p ∈ ps, ∀ c ∈ p, isDigit 10 c = true := by
  induction ps generalizing ns with
  | nil => simp
  | cons p ps ih =>
    simp only [List.mapM_cons, Option.bind_eq_bind, Option.bind_eq_some_iff, Option.pure_def,
      Option.some.injEq] at h
    obtain ⟨n, hn, ms, hms, -⟩ := h
    intro q hq
    rcases List.mem_cons.mp hq with rfl | hq
    · rw [octet] at hn
      split at hn
      · rename_i hp
        exact isDigit_of_isShortDecimal hp.1
      · contradiction
    · exact ih hms q hq

theorem mem_intercalate_singleton {α : Type} {c sep : α} {ps : List (List α)}
    (h : c ∈ List.intercalate [sep] ps) : c = sep ∨ ∃ p ∈ ps, c ∈ p := by
  induction ps with
  | nil => simp at h
  | cons p ps ih =>
    cases ps with
    | nil => exact Or.inr ⟨p, by simp, by simpa using h⟩
    | cons q qs =>
      rw [List.intercalate_cons_cons, List.append_assoc, List.mem_append, List.mem_append,
        List.mem_singleton] at h
      rcases h with h | h | h
      · exact Or.inr ⟨p, by simp, h⟩
      · exact Or.inl h
      · rcases ih h with h | ⟨r, hr, hcr⟩
        · exact Or.inl h
        · exact Or.inr ⟨r, List.mem_cons_of_mem _ hr, hcr⟩

theorem parseV4_chars {s : List Char} {v : Nat} (h : parseV4 s = some v) :
    ∀ c ∈ s, c = '.' ∨ isDigit 10 c = true := by
  intro c hc
  rw [parseV4] at h
  split at h
  · obtain ⟨ns, hns, -⟩ := Option.map_eq_some_iff.mp h
    have hjoin : s = List.intercalate ['.'] (s.splitOn '.') := (List.intercalate_splitOn '.').symm
    rw [hjoin] at hc
    rcases mem_intercalate_singleton hc with hc | ⟨p, hp, hcp⟩
    · exact Or.inl hc
    · exact Or.inr (isDigit_of_mapM_octet hns p hp c hcp)
  · contradiction

/-! ## Colon-separated fields -/

/-- The text before and after the first `::`. -/
def splitDouble : List Char → Option (List Char × List Char)
  | [] => none
  | [_] => none
  | a :: b :: rest =>
    if a = ':' ∧ b = ':' then some ([], rest)
    else (splitDouble (b :: rest)).map fun lr => (a :: lr.1, lr.2)

/-- A field of one to four hexadecimal digits. -/
def isHextet (g : List Char) : Bool :=
  decide (g ≠ []) && decide (g.length ≤ 4) && g.all (isDigit 16)

/-- The value of a field. -/
def hextet (g : List Char) : Option Nat := if isHextet g then some (ofDigits 16 g) else none

/-- The last field; with `dotted` it may be a dotted address, which stands for two fields. -/
def lastField (dotted : Bool) (g : List Char) : Option (List Nat) :=
  match hextet g with
  | some n => some [n]
  | none => if dotted then (parseV4 g).map (toGroups 16 2) else none

/-- The fields of a list of texts. -/
def fieldList (dotted : Bool) : List (List Char) → Option (List Nat)
  | [] => some []
  | [g] => lastField dotted g
  | g :: h :: gs => (hextet g).bind fun n => (fieldList dotted (h :: gs)).map (n :: ·)

/-- The fields of a possibly empty colon-separated text. -/
def fields (dotted : Bool) (s : List Char) : Option (List Nat) :=
  if s = [] then some [] else fieldList dotted (s.splitOn ':')

/-- The address written in colon-separated form, without a zone. -/
def parseV6 (s : List Char) : Option Nat :=
  match splitDouble s with
  | none => (fields true s).bind fun gs => if gs.length = 8 then some (ofGroups 16 gs) else none
  | some (l, r) =>
    (fields false l).bind fun ls => (fields true r).bind fun rs =>
      if ls.length + rs.length < 8 then
        some (ofGroups 16 (ls ++ List.replicate (8 - ls.length - rs.length) 0 ++ rs))
      else none

theorem hextet_lt {g : List Char} {n : Nat} (h : hextet g = some n) : n < 2 ^ 16 := by
  rw [hextet] at h
  split at h
  · rename_i hg
    simp only [isHextet, Bool.and_eq_true, decide_eq_true_eq, List.all_eq_true] at hg
    rw [← Option.some.inj h]
    exact ofDigits_lt (b := 16) (k := 4) (by omega) g hg.1.2 hg.2
  · contradiction

theorem hextet_toDigits {n : Nat} (hn : n < 2 ^ 16) : hextet (Nat.toDigits 16 n) = some n := by
  have hlen : (Nat.toDigits 16 n).length ≤ 4 :=
    (Nat.length_toDigits_le_iff (by omega) (by omega)).mpr (by simpa using hn)
  have hdig : (Nat.toDigits 16 n).all (isDigit 16) = true :=
    List.all_eq_true.mpr (isDigit_of_mem_toDigits (by omega) (by omega) n)
  rw [hextet, if_pos (by simp [isHextet, hlen, hdig, Nat.toDigits_ne_nil]),
    ofDigits_toDigits (by omega) (by omega)]

theorem lastField_lt {dotted : Bool} {g : List Char} {ns : List Nat}
    (h : lastField dotted g = some ns) : ∀ n ∈ ns, n < 2 ^ 16 := by
  rw [lastField] at h
  split at h
  · rename_i n hn
    rw [← Option.some.inj h]
    simpa using hextet_lt hn
  · split at h
    · obtain ⟨v, _, rfl⟩ := Option.map_eq_some_iff.mp h
      exact toGroups_lt 16 2 v
    · contradiction

theorem fieldList_lt {dotted : Bool} {gs : List (List Char)} {ns : List Nat}
    (h : fieldList dotted gs = some ns) : ∀ n ∈ ns, n < 2 ^ 16 := by
  induction gs using fieldList.induct generalizing ns with
  | case1 => simp [fieldList] at h; simp [h]
  | case2 g => exact lastField_lt h
  | case3 g k gs ih =>
    rw [fieldList] at h
    obtain ⟨n, hn, h⟩ := Option.bind_eq_some_iff.mp h
    obtain ⟨ms, hms, rfl⟩ := Option.map_eq_some_iff.mp h
    intro m hm
    rcases List.mem_cons.mp hm with rfl | hm
    · exact hextet_lt hn
    · exact ih hms m hm

theorem fields_lt {dotted : Bool} {s : List Char} {ns : List Nat}
    (h : fields dotted s = some ns) : ∀ n ∈ ns, n < 2 ^ 16 := by
  rw [fields] at h
  split at h
  · rw [← Option.some.inj h]
    simp
  · exact fieldList_lt h

theorem parseV6_lt {s : List Char} {v : Nat} (h : parseV6 s = some v) : v < 2 ^ 128 := by
  rw [parseV6] at h
  split at h
  · obtain ⟨gs, hgs, h⟩ := Option.bind_eq_some_iff.mp h
    split at h
    · rename_i hlen
      have hb := ofGroups_lt 16 gs (fields_lt hgs)
      rw [hlen] at hb
      rwa [← Option.some.inj h]
    · contradiction
  · obtain ⟨ls, hls, h⟩ := Option.bind_eq_some_iff.mp h
    obtain ⟨rs, hrs, h⟩ := Option.bind_eq_some_iff.mp h
    split at h
    · rename_i hlen
      have hb := ofGroups_lt 16 (ls ++ List.replicate (8 - ls.length - rs.length) 0 ++ rs) (by
        intro n hn
        rcases List.mem_append.mp hn with hn | hn
        · rcases List.mem_append.mp hn with hn | hn
          · exact fields_lt hls n hn
          · rw [(List.mem_replicate.mp hn).2]
            norm_num
        · exact fields_lt hrs n hn)
      have hlen8 : (ls ++ List.replicate (8 - ls.length - rs.length) 0 ++ rs).length = 8 := by
        simp
        omega
      rw [hlen8] at hb
      rwa [← Option.some.inj h]
    · contradiction

/-! ## Rendering -/

/-- The leftmost longest run of at least two `true`, as its start and length; `(0, 0)` if none. -/
def longestRun (zs : List Bool) : Nat × Nat :=
  (List.range zs.length).foldl (fun best i =>
    let l := ((zs.drop i).takeWhile id).length
    if 2 ≤ l ∧ best.2 < l then (i, l) else best) (0, 0)

/-- The colon-separated form of fields, the run `(start, len)` written `::` if it is not empty. -/
def joinFields (gs : List Nat) (run : Nat × Nat) : List Char :=
  let hex := gs.map (Nat.toDigits 16)
  if run.2 < 2 then List.intercalate [':'] hex
  else List.intercalate [':'] (hex.take run.1) ++ [':', ':'] ++
    List.intercalate [':'] (hex.drop (run.1 + run.2))

/-- The RFC 5952 form of a 128-bit address. -/
def textV6 (v : Nat) : List Char :=
  joinFields (toGroups 16 8 v) (longestRun ((toGroups 16 8 v).map (· == 0)))

theorem splitDouble_cons {c : Char} (hc : c ≠ ':') (t : List Char) :
    splitDouble (c :: t) = (splitDouble t).map fun lr => (c :: lr.1, lr.2) := by
  cases t with
  | nil => rfl
  | cons d t => rw [splitDouble, if_neg (fun h => hc h.1)]

theorem splitDouble_append {g : List Char} (hg : ':' ∉ g) (t : List Char) :
    splitDouble (g ++ t) = (splitDouble t).map fun lr => (g ++ lr.1, lr.2) := by
  induction g with
  | nil => simp
  | cons c g ih =>
    have hc : c ≠ ':' := fun h => hg (by simp [h])
    rw [List.cons_append, splitDouble_cons hc, ih (fun h => hg (by simp [h])), Option.map_map]
    rfl

theorem splitDouble_of_not_mem {g : List Char} (hg : ':' ∉ g) : splitDouble g = none := by
  simpa [splitDouble] using splitDouble_append hg []

theorem splitDouble_colon {g : List Char} (hg : ':' ∉ g) (hne : g ≠ []) (t : List Char) :
    splitDouble (':' :: (g ++ t)) = (splitDouble (g ++ t)).map fun lr => (':' :: lr.1, lr.2) := by
  cases g with
  | nil => exact absurd rfl hne
  | cons c g =>
    have hc : c ≠ ':' := fun h => hg (by simp [h])
    rw [List.cons_append, splitDouble, if_neg (fun h => hc h.2)]

theorem intercalate_cons_eq_append {α : Type} (sep k : List α) (ks : List (List α)) :
    ∃ t, List.intercalate sep (k :: ks) = k ++ t := by
  cases ks with
  | nil => exact ⟨[], by simp⟩
  | cons m ms => exact ⟨_, by rw [List.intercalate_cons_cons, List.append_assoc]⟩

theorem splitDouble_intercalate (gs : List (List Char)) (hg : ∀ g ∈ gs, ':' ∉ g ∧ g ≠ [])
    (t : List Char) :
    splitDouble (List.intercalate [':'] gs ++ ':' :: ':' :: t) =
      some (List.intercalate [':'] gs, t) := by
  induction gs with
  | nil => simp [splitDouble]
  | cons g gs ih =>
    have hhd := hg g (by simp)
    have htl := ih fun k hk => hg k (by simp [hk])
    cases gs with
    | nil =>
      rw [List.intercalate_singleton, splitDouble_append hhd.1]
      simp [splitDouble]
    | cons k ks =>
      have hk := hg k (by simp)
      obtain ⟨t', ht'⟩ := intercalate_cons_eq_append [':'] k ks
      rw [List.intercalate_cons_cons, List.append_assoc, List.append_assoc,
        splitDouble_append hhd.1, List.singleton_append]
      rw [ht', List.append_assoc] at htl ⊢
      rw [splitDouble_colon hk.1 hk.2, htl]
      simp

theorem splitDouble_intercalate_none (gs : List (List Char)) (hg : ∀ g ∈ gs, ':' ∉ g ∧ g ≠ []) :
    splitDouble (List.intercalate [':'] gs) = none := by
  induction gs with
  | nil => rfl
  | cons g gs ih =>
    have hhd := hg g (by simp)
    have htl := ih fun k hk => hg k (by simp [hk])
    cases gs with
    | nil =>
      rw [List.intercalate_singleton]
      exact splitDouble_of_not_mem hhd.1
    | cons k ks =>
      have hk := hg k (by simp)
      obtain ⟨t', ht'⟩ := intercalate_cons_eq_append [':'] k ks
      rw [List.intercalate_cons_cons, List.append_assoc, splitDouble_append hhd.1,
        List.singleton_append]
      rw [ht'] at htl ⊢
      rw [splitDouble_colon hk.1 hk.2, htl]
      simp

theorem hex_field {gs : List Nat} : ∀ g ∈ gs.map (Nat.toDigits 16), ':' ∉ g ∧ g ≠ [] := by
  intro g hg
  obtain ⟨n, _, rfl⟩ := List.mem_map.mp hg
  exact ⟨not_mem_toDigits (by omega) (by omega) n not_digit_colon, Nat.toDigits_ne_nil⟩

theorem fieldList_toDigits (dotted : Bool) {gs : List Nat} (h : ∀ g ∈ gs, g < 2 ^ 16) :
    fieldList dotted (gs.map (Nat.toDigits 16)) = some gs := by
  induction gs with
  | nil => rfl
  | cons g gs ih =>
    have hg := hextet_toDigits (h g (by simp))
    have htl := ih fun k hk => h k (by simp [hk])
    cases gs with
    | nil => simp [fieldList, lastField, hg]
    | cons k ks =>
      rw [List.map_cons, List.map_cons, fieldList, hg, Option.bind_some, ← List.map_cons, htl]
      rfl

theorem fields_intercalate (dotted : Bool) {gs : List Nat} (h : ∀ g ∈ gs, g < 2 ^ 16) :
    fields dotted (List.intercalate [':'] (gs.map (Nat.toDigits 16))) = some gs := by
  cases gs with
  | nil => rfl
  | cons g gs =>
    have hne : List.intercalate [':'] ((g :: gs).map (Nat.toDigits 16)) ≠ [] := by
      obtain ⟨t, ht⟩ := intercalate_cons_eq_append [':'] (Nat.toDigits 16 g)
        (gs.map (Nat.toDigits 16))
      rw [List.map_cons, ht]
      simp [Nat.toDigits_ne_nil]
    rw [fields, if_neg hne, List.splitOn_intercalate ':' (fun l hl => (hex_field l hl).1) (by simp)]
    exact fieldList_toDigits dotted h

theorem longestRun_spec : ∀ zs : List Bool, zs.length = 8 → 2 ≤ (longestRun zs).2 →
    (longestRun zs).1 + (longestRun zs).2 ≤ 8 ∧
      ∀ i < (longestRun zs).2, zs[(longestRun zs).1 + i]? = some true := by
  intro zs hlen
  obtain ⟨a, b, c, d, e, f, g, h, rfl⟩ : ∃ a b c d e f g h, zs = [a, b, c, d, e, f, g, h] := by
    match zs, hlen with
    | [a, b, c, d, e, f, g, h], _ => exact ⟨a, b, c, d, e, f, g, h, rfl⟩
  revert a b c d e f g h
  decide +kernel

theorem take_zeros_drop {gs : List Nat} {start len : Nat}
    (hz : ∀ i < len, gs[start + i]? = some 0) :
    gs.take start ++ List.replicate len 0 ++ gs.drop (start + len) = gs := by
  have hmid : (gs.drop start).take len = List.replicate len 0 := by
    apply List.ext_getElem?
    intro i
    rw [List.getElem?_take, List.getElem?_drop, List.getElem?_replicate]
    split
    · exact hz i (by assumption)
    · rfl
  rw [← hmid, List.append_assoc, ← List.drop_drop, List.take_append_drop, List.take_append_drop]

theorem parseV6_joinFields {gs : List Nat} (hlen : gs.length = 8) (h : ∀ g ∈ gs, g < 2 ^ 16)
    {run : Nat × Nat} (hle : 2 ≤ run.2 → run.1 + run.2 ≤ 8)
    (hz : 2 ≤ run.2 → ∀ i < run.2, gs[run.1 + i]? = some 0) :
    parseV6 (joinFields gs run) = some (ofGroups 16 gs) := by
  rw [joinFields]
  split
  · rw [parseV6, splitDouble_intercalate_none _ hex_field]
    simp [fields_intercalate true h, hlen]
  · have hlen2 : 2 ≤ run.2 := by omega
    have hle := hle hlen2
    rw [← List.map_take, ← List.map_drop, List.append_assoc, parseV6, List.cons_append,
      List.singleton_append, splitDouble_intercalate _ hex_field]
    simp only [fields_intercalate false (fun g hg => h g (List.mem_of_mem_take hg)),
      fields_intercalate true (fun g hg => h g (List.mem_of_mem_drop hg)), Option.bind_some,
      List.length_take, List.length_drop, hlen]
    rw [if_pos (by omega), show 8 - min run.1 8 - (8 - (run.1 + run.2)) = run.2 by omega,
      take_zeros_drop (hz hlen2)]

theorem parseV6_textV6 {v : Nat} (hv : v < 2 ^ 128) : parseV6 (textV6 v) = some v := by
  have hspec := longestRun_spec ((toGroups 16 8 v).map (· == 0)) (by simp)
  rw [textV6, parseV6_joinFields (by simp) (toGroups_lt 16 8 v) (fun h => (hspec h).1) ?_,
    ofGroups_toGroups 16 8 v hv]
  intro h i hi
  have := (hspec h).2 i hi
  simpa [List.getElem?_map] using this

end Obliguard.AddrText

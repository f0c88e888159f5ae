import Obliguard.Base.Target
import Obliguard.Server.IpValidation

/-!
# The converters of `ipValidation.ts` against the address grammar

`v4ToBigInt_eq` and `v6ToBigInt_eq` say that the two hand-written converters accept exactly the
texts of the grammar and give their values; `renderV4_eq` and `renderV6_eq` say that the renderers
write the canonical texts. What `v6ToBigInt` does in three passes (lower case, dotted tail to two
hextets, groups) is compared with `parseV6` pass by pass: the grammar does not see the case of a
letter (`parseV6_map_toLower`), and `hexParse` is the reading of a text without a dotted tail.
-/

namespace Obliguard.IpValidation

open Numeral AddrText Text HighBits

/-! ## Dotted decimal -/

theorem foldlM_eq_mapM {α : Type} (k : Nat) (f : α → Option Nat)
    (hf : ∀ a n, f a = some n → n < 2 ^ k) (as : List α) (v : Nat) :
    as.foldlM (fun v a => (f a).map fun n => (v <<< k) ||| n) v =
      (as.mapM f).map fun ns => ns.foldl (fun v g => v * 2 ^ k + g) v := by
  induction as generalizing v with
  | nil => rfl
  | cons a as ih =>
    rw [List.foldlM_cons, List.mapM_cons]
    cases hfa : f a with
    | none => rfl
    | some n =>
      simp only [Option.map_some, Option.bind_eq_bind, Option.bind_some, Option.pure_def, ih,
        shiftLeft_or_eq v (hf a n hfa)]
      cases as.mapM f <;> rfl

theorem v4ToBigInt_eq (s : List Char) : v4ToBigInt s = parseV4 s := by
  have hstep : (fun (v : Nat) (p : List Char) =>
      if !octetRe p then none
      else if ofDigits 10 p > 255 then none else some ((v <<< 8) ||| ofDigits 10 p)) =
      fun v p => (octet p).map fun n => (v <<< 8) ||| n := by
    funext v p
    rw [octet]
    by_cases h1 : isShortDecimal p = true
    · by_cases h2 : ofDigits 10 p ≤ 255
      · simp [octetRe, h1, h2]
      · simp [octetRe, h1, h2]
    · simp [octetRe, h1]
  rw [v4ToBigInt, parseV4]
  simp only [hstep, ne_eq, ite_not]
  rw [foldlM_eq_mapM 8 octet fun p n h => octet_lt h]
  rfl

/-! ## The grammar on lower-case texts -/

theorem toLower_cases (c : Char) : c.toLower = c ∨
    ∃ n, 65 ≤ n ∧ n ≤ 90 ∧ c = Char.ofNat n := by
  delta Char.toLower
  split
  · rename_i h
    refine Or.inr ⟨c.toNat, ?_, ?_, (Char.ofNat_toNat c).symm⟩
    · exact h.1
    · exact h.2
  · exact Or.inl rfl

theorem digitVal_toLower (c : Char) : digitVal c.toLower = digitVal c := by
  rcases toLower_cases c with h | ⟨n, h1, h2, rfl⟩
  · rw [h]
  · interval_cases n <;> decide

theorem toLower_eq_iff {d : Char} (hd : d = ':' ∨ d = '.' ∨ d = '0') (c : Char) :
    c.toLower = d ↔ c = d := by
  rcases toLower_cases c with h | ⟨n, h1, h2, rfl⟩
  · rw [h]
  · rcases hd with rfl | rfl | rfl <;> interval_cases n <;> decide

theorem ofDigits_map_toLower (b : Nat) (g : List Char) :
    ofDigits b (g.map Char.toLower) = ofDigits b g := by
  simp only [ofDigits, List.foldl_map, digitVal_toLower]

theorem all_isDigit_map_toLower (b : Nat) (g : List Char) :
    (g.map Char.toLower).all (isDigit b) = g.all (isDigit b) := by
  rw [List.all_map]
  congr 1
  funext c
  simp only [Function.comp_apply, isDigit, digitVal_toLower]

theorem hextet_map_toLower (g : List Char) : hextet (g.map Char.toLower) = hextet g := by
  rw [hextet, hextet, isHextet, isHextet, ofDigits_map_toLower, all_isDigit_map_toLower]
  simp only [List.length_map, ne_eq, List.map_eq_nil_iff]

theorem octet_map_toLower (g : List Char) : octet (g.map Char.toLower) = octet g := by
  have hhead : (g.map Char.toLower).head? = some '0' ↔ g.head? = some '0' := by
    cases g with
    | nil => simp
    | cons c g => simpa using toLower_eq_iff (by simp) c
  rw [octet, octet, isShortDecimal, isShortDecimal, ofDigits_map_toLower, all_isDigit_map_toLower]
  simp only [List.length_map, ne_eq, hhead]

theorem splitOn_map_toLower {d : Char} (hd : d = ':' ∨ d = '.' ∨ d = '0') (s : List Char) :
    (s.map Char.toLower).splitOn d = (s.splitOn d).map (·.map Char.toLower) := by
  induction s with
  | nil => simp
  | cons c s ih =>
    rw [List.map_cons, List.splitOn_cons_eq_if_modifyHead, List.splitOn_cons_eq_if_modifyHead, ih]
    by_cases hc : c = d
    · rw [if_pos (by simpa using (toLower_eq_iff hd c).mpr hc), if_pos (by simpa using hc)]
      rfl
    · rw [if_neg (by simpa using fun h => hc ((toLower_eq_iff hd c).mp h)),
        if_neg (by simpa using hc)]
      cases s.splitOn d <;> rfl

theorem parseV4_map_toLower (s : List Char) : parseV4 (s.map Char.toLower) = parseV4 s := by
  have hcomp : (octet ∘ fun g => g.map Char.toLower) = octet := funext octet_map_toLower
  rw [parseV4, parseV4, splitOn_map_toLower (by simp), List.length_map, List.mapM_map, hcomp]

theorem splitDouble_map_toLower (s : List Char) :
    splitDouble (s.map Char.toLower) =
      (splitDouble s).map fun lr => (lr.1.map Char.toLower, lr.2.map Char.toLower) := by
  induction s using splitDouble.induct with
  | case1 => rfl
  | case2 c => rfl
  | case3 a b rest h =>
    obtain ⟨rfl, rfl⟩ := h
    rfl
  | case4 a b rest h ih =>
    rw [List.map_cons, List.map_cons, splitDouble, splitDouble, if_neg h, if_neg, ← List.map_cons,
      ih, Option.map_map, Option.map_map]
    · rfl
    · rw [toLower_eq_iff (by simp), toLower_eq_iff (by simp)]
      exact h

theorem lastField_map_toLower (d : Bool) (g : List Char) :
    lastField d (g.map Char.toLower) = lastField d g := by
  rw [lastField, lastField, hextet_map_toLower, parseV4_map_toLower]

theorem fieldList_map_toLower (d : Bool) (gs : List (List Char)) :
    fieldList d (gs.map (·.map Char.toLower)) = fieldList d gs := by
  induction gs using fieldList.induct with
  | case1 => rfl
  | case2 g => exact lastField_map_toLower d g
  | case3 g k gs ih =>
    rw [List.map_cons] at ih
    rw [List.map_cons, List.map_cons, fieldList, fieldList, hextet_map_toLower, ih]

theorem fields_map_toLower (d : Bool) (s : List Char) :
    fields d (s.map Char.toLower) = fields d s := by
  rw [fields, fields, splitOn_map_toLower (by simp), fieldList_map_toLower]
  simp only [List.map_eq_nil_iff]

theorem parseV6_map_toLower (s : List Char) : parseV6 (s.map Char.toLower) = parseV6 s := by
  rw [parseV6, parseV6, splitDouble_map_toLower]
  cases splitDouble s with
  | none => simp only [Option.map_none, fields_map_toLower]
  | some lr => simp only [Option.map_some, fields_map_toLower]

/-! ## The dotted tail -/

theorem take_sub_length {s x t : List Char} (h : s = x ++ t) : s.take (s.length - t.length) = x := by
  subst h
  simp

theorem exists_afterLastColon (s : List Char) : ∃ x, s = x ++ afterLastColon s ∧
    throughLastColon s = x ∧ ':' ∉ afterLastColon s ∧ (x = [] ∨ ∃ y, x = y ++ [':']) := by
  have h : s = (s.reverse.dropWhile (· ≠ ':')).reverse ++ afterLastColon s := by
    rw [afterLastColon, ← List.reverse_append, List.takeWhile_append_dropWhile, List.reverse_reverse]
  refine ⟨(s.reverse.dropWhile (· ≠ ':')).reverse, h, take_sub_length h, ?_, ?_⟩
  · intro hmem
    rw [afterLastColon, List.mem_reverse] at hmem
    simpa using List.all_eq_true.mp List.all_takeWhile _ hmem
  · cases hd : s.reverse.dropWhile (· ≠ ':') with
    | nil => exact Or.inl rfl
    | cons c cs =>
      refine Or.inr ⟨cs.reverse, ?_⟩
      have hc := List.head_dropWhile_not (fun c : Char => decide (c ≠ ':')) (l := s.reverse)
        (by rw [hd]; simp)
      simp only [hd, List.head_cons, ne_eq, decide_eq_false_iff_not, Decidable.not_not] at hc
      simp [hc]

theorem splitDouble_append_right {u : List Char} (hu : splitDouble u = none)
    (hhd : u.head? ≠ some ':') (x : List Char) :
    splitDouble (x ++ u) = (splitDouble x).map fun lr => (lr.1, lr.2 ++ u) := by
  induction x using splitDouble.induct with
  | case1 => simpa [splitDouble] using hu
  | case2 c =>
    cases u with
    | nil => rfl
    | cons d u =>
      have hd : d ≠ ':' := by simpa using hhd
      simp [splitDouble, hd, hu]
  | case3 a b rest h =>
    obtain ⟨rfl, rfl⟩ := h
    simp [splitDouble]
  | case4 a b rest h ih =>
    rw [List.cons_append, List.cons_append, splitDouble, splitDouble, if_neg h, if_neg h,
      ← List.cons_append, ih, Option.map_map, Option.map_map]
    rfl

theorem fieldList_append (d : Bool) (gs : List (List Char)) (g : List Char) :
    fieldList d (gs ++ [g]) =
      (gs.mapM hextet).bind fun ns => (lastField d g).map fun ms => ns ++ ms := by
  induction gs with
  | nil =>
    cases h : lastField d g <;> simp [fieldList, h]
  | cons k gs ih =>
    obtain ⟨m, ms, hm⟩ : ∃ m ms, gs ++ [g] = m :: ms := by
      cases gs with
      | nil => exact ⟨g, [], rfl⟩
      | cons m ms => exact ⟨m, ms ++ [g], rfl⟩
    rw [List.cons_append, hm, fieldList, ← hm, ih, List.mapM_cons]
    cases hextet k with
    | none => rfl
    | some n =>
      cases gs.mapM hextet with
      | none => rfl
      | some ns => cases lastField d g <;> rfl

theorem lastField_false (g : List Char) : lastField false g = (hextet g).map ([·]) := by
  rw [lastField]
  cases hextet g <;> rfl

theorem fieldList_false (gs : List (List Char)) : fieldList false gs = gs.mapM hextet := by
  cases gs using List.reverseRecOn with
  | nil => rfl
  | append_singleton gs g =>
    rw [fieldList_append, lastField_false, List.mapM_append]
    cases gs.mapM hextet with
    | none => rfl
    | some ns => cases h : hextet g <;> simp [h]

/-- The fields before a last one: `x` is empty or ends in a colon. -/
def leadingFields (x : List Char) : List (List Char) := if x = [] then [] else x.dropLast.splitOn ':'

theorem splitOn_leading {x : List Char} (hx : x = [] ∨ ∃ y, x = y ++ [':']) (u : List Char) :
    (x ++ u).splitOn ':' = leadingFields x ++ u.splitOn ':' := by
  rcases hx with rfl | ⟨y, rfl⟩
  · simp [leadingFields]
  · rw [leadingFields, if_neg (by simp), List.dropLast_concat, List.append_assoc,
      List.singleton_append, List.splitOn_append_cons_self]

theorem lastField_of_no_dot (d : Bool) {g : List Char} (hg : '.' ∉ g) :
    lastField d g = lastField false g := by
  have hv4 : parseV4 g = none := by
    rw [parseV4, List.splitOn_eq_singleton hg]
    rfl
  rw [lastField, lastField, hv4]
  cases hextet g <;> simp

theorem hextet_of_dot {g : List Char} (hg : '.' ∈ g) : hextet g = none := by
  rw [hextet, if_neg]
  intro h
  simp only [isHextet, Bool.and_eq_true, List.all_eq_true] at h
  have := h.2 '.' hg
  rw [not_digit_dot] at this
  contradiction

section tail
variable {x tail : List Char} (hx : x = [] ∨ ∃ y, x = y ++ [':']) (htail : ':' ∉ tail)
include hx htail

theorem fields_leading (d : Bool) (hne : x ++ tail ≠ []) :
    fields d (x ++ tail) = ((leadingFields x).mapM hextet).bind fun ns =>
      (lastField d tail).map fun ms => ns ++ ms := by
  rw [fields, if_neg hne, splitOn_leading hx, List.splitOn_eq_singleton htail, fieldList_append]

theorem fields_of_no_dot (hdot : '.' ∉ tail) : fields true (x ++ tail) = fields false (x ++ tail) := by
  by_cases hne : x ++ tail = []
  · rw [hne]
    rfl
  · rw [fields_leading hx htail true hne, fields_leading hx htail false hne,
      lastField_of_no_dot true hdot]

theorem fields_of_bad_dot (hdot : '.' ∈ tail) (hv4 : parseV4 tail = none) :
    fields true (x ++ tail) = none := by
  have hne : x ++ tail ≠ [] := by
    intro h
    rw [(List.append_eq_nil_iff.mp h).2] at hdot
    simp at hdot
  have hlast : lastField true tail = none := by simp [lastField, hextet_of_dot hdot, hv4]
  rw [fields_leading hx htail true hne, hlast]
  simp

theorem fields_of_dot (hdot : '.' ∈ tail) {v hi lo : Nat} (hv4 : parseV4 tail = some v)
    (hhi : hi = v / 2 ^ 16 % 2 ^ 16) (hlo : lo = v % 2 ^ 16) :
    fields true (x ++ tail) =
      fields false (x ++ (Nat.toDigits 16 hi ++ [':'] ++ Nat.toDigits 16 lo)) := by
  have hne : x ++ tail ≠ [] := by
    intro h
    rw [(List.append_eq_nil_iff.mp h).2] at hdot
    simp at hdot
  have hlast : lastField true tail = some [hi, lo] := by
    simp [lastField, hextet_of_dot hdot, hv4, toGroups, hhi, hlo]
  have hcolon : ∀ n, ':' ∉ Nat.toDigits 16 n := fun n =>
    not_mem_toDigits (by omega) (by omega) n not_digit_colon
  have hhi16 : hextet (Nat.toDigits 16 hi) = some hi :=
    hextet_toDigits (by rw [hhi]; exact Nat.mod_lt _ (by norm_num))
  have hlo16 : hextet (Nat.toDigits 16 lo) = some lo :=
    hextet_toDigits (by rw [hlo]; exact Nat.mod_lt _ (by norm_num))
  rw [fields_leading hx htail true hne, hlast, fields, if_neg (by simp), splitOn_leading hx,
    fieldList_false, List.mapM_append, List.append_assoc, List.singleton_append,
    List.splitOn_append_cons_self_of_not_mem (hcolon hi), List.splitOn_eq_singleton (hcolon lo)]
  cases (leadingFields x).mapM hextet with
  | none => rfl
  | some ns => simp [hhi16, hlo16]

end tail

/-- The reading of a text without a dotted tail: each side of `::` field by field. -/
def hexParse (s : List Char) : Option Nat :=
  match splitDouble s with
  | none => (fields false s).bind fun gs => if gs.length = 8 then some (ofGroups 16 gs) else none
  | some (l, r) =>
    (fields false l).bind fun ls => (fields false r).bind fun rs =>
      if ls.length + rs.length < 8 then
        some (ofGroups 16 (ls ++ List.replicate (8 - ls.length - rs.length) 0 ++ rs))
      else none

theorem after_double {x l r : List Char} (hx : x = [] ∨ ∃ y, x = y ++ [':'])
    (h : splitDouble x = some (l, r)) : r = [] ∨ ∃ y, r = y ++ [':'] := by
  have hx' := splitDouble_eq_some h
  rcases List.eq_nil_or_concat r with hr | ⟨y, c, hr⟩
  · exact Or.inl hr
  · right
    rcases hx with hx | ⟨z, hz⟩
    · rw [hx] at hx'
      simp at hx'
    · rw [hz, hr, List.concat_eq_append] at hx'
      have : z ++ [':'] = (l ++ ':' :: ':' :: y) ++ [c] := by simpa using hx'
      have := (List.append_inj' this rfl).2
      exact ⟨y, by rw [hr, List.concat_eq_append]; simp at this; rw [this]⟩

theorem parseV6_eq_hexParse (s : List Char) : parseV6 s = (expandTail s).bind hexParse := by
  obtain ⟨x, hs, hthrough, hcolon, hx⟩ := exists_afterLastColon s
  rw [expandTail, hthrough]
  generalize afterLastColon s = tail at *
  subst hs
  have hhead : ∀ c, tail.head? = some c → c ≠ ':' := by
    intro c hc h
    cases tail with
    | nil => simp at hc
    | cons d t =>
      simp only [List.head?_cons, Option.some.injEq] at hc
      exact hcolon (by rw [← h, ← hc]; simp)
  have hsplit := splitDouble_append_right (splitDouble_of_not_mem hcolon)
    (fun h => hhead ':' h rfl) x
  by_cases hdot : '.' ∈ tail
  · simp only [hdot, if_true, v4ToBigInt_eq]
    cases hv4 : parseV4 tail with
    | none =>
      rw [parseV6, hsplit]
      cases hd : splitDouble x with
      | none => simp [fields_of_bad_dot hx hcolon hdot hv4]
      | some lr => simp [fields_of_bad_dot (after_double hx hd) hcolon hdot hv4]
    | some v =>
      have hhi : (v >>> 16) &&& 0xffff = v / 2 ^ 16 % 2 ^ 16 := by
        rw [Nat.shiftRight_eq_div_pow]
        exact Nat.and_two_pow_sub_one_eq_mod _ 16
      have hlo : v &&& 0xffff = v % 2 ^ 16 := Nat.and_two_pow_sub_one_eq_mod _ 16
      set u := Nat.toDigits 16 ((v >>> 16) &&& 0xffff) ++ [':'] ++ Nat.toDigits 16 (v &&& 0xffff)
        with hu
      have hudouble : splitDouble u = none := by
        have := splitDouble_intercalate_none
          ([(v >>> 16) &&& 0xffff, v &&& 0xffff].map (Nat.toDigits 16)) hex_field
        simpa [List.intercalate_cons_cons, hu] using this
      have huhead : u.head? ≠ some ':' := by
        intro h
        have hne : Nat.toDigits 16 ((v >>> 16) &&& 0xffff) ≠ [] := Nat.toDigits_ne_nil
        rw [hu, List.append_assoc, List.head?_append_of_ne_nil _ hne] at h
        exact not_mem_toDigits (by omega) (by omega) _ not_digit_colon (List.mem_of_mem_head? h)
      have husplit := splitDouble_append_right hudouble huhead x
      rw [Option.map_some, Option.bind_some, List.append_assoc, List.append_assoc,
        ← List.append_assoc (Nat.toDigits 16 _), ← hu, hexParse, husplit, parseV6, hsplit]
      cases hd : splitDouble x with
      | none =>
        simp only [Option.map_none]
        rw [fields_of_dot hx hcolon hdot hv4 hhi hlo]
      | some lr =>
        simp only [Option.map_some]
        rw [fields_of_dot (after_double hx hd) hcolon hdot hv4 hhi hlo]
  · simp only [hdot, if_false, Option.bind_some]
    rw [parseV6, hexParse, hsplit]
    cases hd : splitDouble x with
    | none => simp only [Option.map_none, fields_of_no_dot hx hcolon hdot]
    | some lr => simp only [Option.map_some, fields_of_no_dot (after_double hx hd) hcolon hdot]

/-- No upper-case letter occurs. -/
def IsLower (s : List Char) : Prop := ∀ c ∈ s, c.toLower = c

theorem hextetRe_eq {g : List Char} (hg : IsLower g) : hextetRe g = isHextet g := by
  have hall : g.all (fun c => (decide ('0' ≤ c) && decide (c ≤ '9')) ||
      (decide ('a' ≤ c) && decide (c ≤ 'f'))) = g.all (isDigit 16) := by
    apply Bool.eq_iff_iff.mpr
    simp only [List.all_eq_true]
    refine forall₂_congr fun c hc => ?_
    have hlow := hg c hc
    have hupper : ¬ ('A' ≤ c ∧ c ≤ 'F') := by
      intro h
      have hn : 65 ≤ c.toNat ∧ c.toNat ≤ 70 := ⟨h.1, h.2⟩
      rw [← Char.ofNat_toNat c] at hlow
      generalize c.toNat = n at hlow hn
      obtain ⟨h1, h2⟩ := hn
      interval_cases n <;> exact absurd hlow (by decide)
    simp only [isDigit, digitVal, hupper, if_false]
    by_cases h0 : '0' ≤ c ∧ c ≤ '9'
    · have hle : c.toNat ≤ 57 := h0.2
      simp only [h0, and_self, decide_true, Bool.and_self, Bool.true_or, if_true, Option.any_some,
        decide_eq_true_eq, true_iff]
      omega
    · by_cases ha : 'a' ≤ c ∧ c ≤ 'f'
      · have hle : c.toNat ≤ 102 := ha.2
        simp only [ha, h0, and_self, decide_true, Bool.and_self, Bool.or_true, if_true, if_false,
          Option.any_some, decide_eq_true_eq, true_iff]
        omega
      · simp only [h0, ha, if_false, Option.any_none, Bool.false_eq_true,
          Bool.or_eq_true, Bool.and_eq_true, decide_eq_true_eq, or_self]
  rw [hextetRe, isHextet, hall]
  cases g <;> simp

theorem fields_false (s : List Char) : fields false s = (sideGroups s).mapM hextet := by
  rw [fields, sideGroups]
  split
  · rfl
  · exact fieldList_false _

theorem foldlM_hextetRe {gs : List (List Char)} (hg : ∀ g ∈ gs, IsLower g) :
    gs.foldlM (fun v g => if !hextetRe g then none else some ((v <<< 16) ||| ofDigits 16 g)) 0 =
      (gs.mapM hextet).map (ofGroups 16) := by
  have key := foldlM_eq_mapM 16 hextet (fun g n h => hextet_lt h) gs 0
  have hcongr : ∀ (gs : List (List Char)) (v : Nat), (∀ g ∈ gs, IsLower g) →
      gs.foldlM (fun v g => if !hextetRe g then none else some ((v <<< 16) ||| ofDigits 16 g)) v =
        gs.foldlM (fun v g => (hextet g).map fun n => (v <<< 16) ||| n) v := by
    intro gs
    induction gs with
    | nil => intro v _; rfl
    | cons g gs ih =>
      intro v hgs
      rw [List.foldlM_cons, List.foldlM_cons, hextetRe_eq (hgs g (by simp)), hextet]
      cases isHextet g with
      | false => rfl
      | true => exact ih _ fun k hk => hgs k (by simp [hk])
  rw [hcongr gs 0 hg, key]
  rfl

theorem mem_of_mem_splitOn {c d : Char} {s g : List Char} (hg : g ∈ s.splitOn d) (hc : c ∈ g) :
    c ∈ s := by
  induction s generalizing g with
  | nil => simp at hg; simp [hg] at hc
  | cons a s ih =>
    rw [List.splitOn_cons_eq_if_modifyHead] at hg
    split at hg
    · rcases List.mem_cons.mp hg with rfl | hg
      · simp at hc
      · exact List.mem_cons_of_mem _ (ih hg hc)
    · cases hs : s.splitOn d with
      | nil => simp at hs
      | cons k ks =>
        rw [hs, List.modifyHead_cons] at hg
        rcases List.mem_cons.mp hg with rfl | hg
        · rcases List.mem_cons.mp hc with rfl | hc
          · simp
          · exact List.mem_cons_of_mem _ (ih (by rw [hs]; simp) hc)
        · exact List.mem_cons_of_mem _ (ih (by rw [hs]; simp [hg]) hc)

theorem IsLower.sideGroups {s : List Char} (hs : IsLower s) : ∀ g ∈ sideGroups s, IsLower g := by
  intro g hg
  rw [IpValidation.sideGroups] at hg
  split at hg
  · simp at hg
  · exact fun c hc => hs c (mem_of_mem_splitOn hg hc)

theorem v6Groups_eq_hexParse {s : List Char} (hs : IsLower s) :
    ((v6Groups s).bind fun groups => if groups.length ≠ 8 then none
      else groups.foldlM (fun v g =>
        if !hextetRe g then none else some ((v <<< 16) ||| ofDigits 16 g)) 0) = hexParse s := by
  rw [v6Groups, hexParse]
  cases hd : splitDouble s with
  | none =>
    simp only [Option.bind_some, fields_false]
    by_cases hnil : s = []
    · subst hnil
      rfl
    · have hside : sideGroups s = s.splitOn ':' := if_neg hnil
      have hlow := hs.sideGroups
      rw [hside] at hlow ⊢
      rw [foldlM_hextetRe hlow]
      cases hm : (s.splitOn ':').mapM hextet with
      | none => simp
      | some ns =>
        rw [← mapM_eq_some_length hm]
        simp only [Option.bind_some, Option.map_some, ne_eq, ite_not]
  | some lr =>
    obtain ⟨l, r⟩ := lr
    have heq := splitDouble_eq_some hd
    have hl : IsLower l := fun c hc => hs c (by rw [heq]; simp [hc])
    have hr : IsLower r := fun c hc => hs c (by rw [heq]; simp [hc])
    have hzero : ∀ n, (List.replicate n ['0']).mapM hextet = some (List.replicate n 0) := by
      intro n
      induction n with
      | zero => rfl
      | succ n ih =>
        rw [List.replicate_succ, List.mapM_cons, ih]
        rfl
    have hlow : ∀ n, ∀ g ∈ sideGroups l ++ List.replicate n ['0'] ++ sideGroups r, IsLower g := by
      intro n g hg
      rcases List.mem_append.mp hg with hg | hg
      · rcases List.mem_append.mp hg with hg | hg
        · exact hl.sideGroups g hg
        · rw [(List.mem_replicate.mp hg).2]
          intro c hc
          simp only [List.mem_singleton] at hc
          subst hc
          decide
      · exact hr.sideGroups g hg
    simp only [fields_false]
    by_cases hlen : (sideGroups l).length + (sideGroups r).length ≥ 8
    · rw [if_pos hlen]
      cases hml : (sideGroups l).mapM hextet with
      | none => rfl
      | some ls =>
        cases hmr : (sideGroups r).mapM hextet with
        | none => rfl
        | some rs =>
          have h1 := mapM_eq_some_length hml
          have h2 := mapM_eq_some_length hmr
          simp only [Option.bind_none, Option.bind_some]
          rw [if_neg (by omega)]
    · have hlen8 : (sideGroups l ++ List.replicate (8 - (sideGroups l).length -
          (sideGroups r).length) ['0'] ++ sideGroups r).length = 8 := by
        simp only [List.length_append, List.length_replicate]
        omega
      rw [if_neg hlen, Option.bind_some, if_neg (by rw [hlen8]; simp), foldlM_hextetRe (hlow _),
        List.mapM_append, List.mapM_append, hzero]
      cases hml : (sideGroups l).mapM hextet with
      | none => rfl
      | some ls =>
        cases hmr : (sideGroups r).mapM hextet with
        | none => rfl
        | some rs =>
          have h1 := mapM_eq_some_length hml
          have h2 := mapM_eq_some_length hmr
          simp only [Option.bind_eq_bind, Option.bind_some, Option.pure_def, Option.map_some]
          rw [if_pos (by omega), h1, h2]

theorem isLower_toDigits (n : Nat) : IsLower (Nat.toDigits 16 n) := by
  have hdc : ∀ d < 16, (Nat.digitChar d).toLower = Nat.digitChar d := by decide
  induction n using Nat.strong_induction_on with
  | _ n ih =>
    intro c hc
    rw [Nat.toDigits_eq_if (by omega)] at hc
    split at hc
    · rw [List.mem_singleton] at hc
      rw [hc]
      exact hdc n (by assumption)
    · rcases List.mem_append.mp hc with hc | hc
      · exact ih (n / 16) (by omega) c hc
      · rw [List.mem_singleton] at hc
        rw [hc]
        exact hdc _ (Nat.mod_lt _ (by omega))

/-- `v6ToBigInt` accepts exactly the addresses of the grammar, with their values. -/
theorem v6ToBigInt_eq (raw : List Char) : v6ToBigInt raw = parseV6 raw := by
  have hlow : IsLower (raw.map Char.toLower) := by
    intro c hc
    obtain ⟨d, _, rfl⟩ := List.mem_map.mp hc
    rcases toLower_cases d with h | ⟨n, h1, h2, rfl⟩
    · rw [h, h]
    · interval_cases n <;> decide
  rw [v6ToBigInt, ← parseV6_map_toLower raw, parseV6_eq_hexParse]
  cases he : expandTail (raw.map Char.toLower) with
  | none => rfl
  | some s =>
    have hs : IsLower s := by
      rw [expandTail] at he
      split at he
      · obtain ⟨v, _, rfl⟩ := Option.map_eq_some_iff.mp he
        intro c hc
        simp only [List.mem_append, List.mem_singleton] at hc
        rcases hc with ((hc | hc) | rfl) | hc
        · exact hlow c (List.mem_of_mem_take hc)
        · exact isLower_toDigits _ c hc
        · decide
        · exact isLower_toDigits _ c hc
      · rw [← Option.some.inj he]
        exact hlow
    exact v6Groups_eq_hexParse hs

/-! ## Rendering -/

theorem shiftRight_and_eq (v sh k : Nat) : (v >>> sh) &&& (2 ^ k - 1) = v / 2 ^ sh % 2 ^ k := by
  rw [Nat.shiftRight_eq_div_pow, Nat.and_two_pow_sub_one_eq_mod]

theorem renderV4_eq (v : Nat) : renderV4 v = textV4 v := by
  have h := fun sh => shiftRight_and_eq v sh 8
  norm_num at h
  simp [renderV4, textV4, toGroups, h, Nat.div_div_eq_div_mul]

theorem bestRun_congr {fuel i : Nat} {best : Nat × Nat} {gs ks : List Nat}
    (h : gs.map (· == 0) = ks.map (· == 0)) : bestRun fuel i best gs = bestRun fuel i best ks := by
  induction fuel generalizing i best gs ks with
  | zero => rfl
  | succ fuel ih =>
    have htake : ∀ l : List Nat, (l.takeWhile (· == 0)).length =
        ((l.map (· == 0)).takeWhile id).length := by
      intro l
      rw [List.takeWhile_map, List.length_map]
      rfl
    have hdrop : ∀ l : List Nat, (l.dropWhile (· == 0)).map (· == 0) =
        (l.map (· == 0)).dropWhile id := by
      intro l
      rw [List.dropWhile_map]
      rfl
    cases gs with
    | nil =>
      cases ks with
      | nil => rfl
      | cons k ks => simp at h
    | cons g gs =>
      cases ks with
      | nil => simp at h
      | cons k ks =>
        have hhd : (g == 0) = (k == 0) := by simpa using (List.cons.inj h).1
        have hzero : g = 0 ↔ k = 0 := by simpa [beq_iff_eq] using Bool.eq_iff_iff.mp hhd
        have hlen := (htake (g :: gs)).trans ((congrArg (fun l => (l.takeWhile id).length) h).trans
          (htake (k :: ks)).symm)
        have hrest := (hdrop (g :: gs)).trans ((congrArg (·.dropWhile id) h).trans
          (hdrop (k :: ks)).symm)
        rw [bestRun, bestRun]
        by_cases hg : g = 0
        · rw [if_neg (not_not.mpr hg), if_neg (not_not.mpr (hzero.mp hg))]
          simp only [hlen]
          exact ih hrest
        · rw [if_pos hg, if_pos fun hk => hg (hzero.mpr hk)]
          exact ih (List.cons.inj h).2

theorem bestRun_eq_longestRun : ∀ zs : List Bool, zs.length = 8 →
    ((bestRun 8 0 (0, 0) (zs.map fun z => if z then 0 else 1)).2 < 2 ∧ (longestRun zs).2 < 2) ∨
      bestRun 8 0 (0, 0) (zs.map fun z => if z then 0 else 1) = longestRun zs := by
  intro zs hlen
  obtain ⟨a, b, c, d, e, f, g, h, rfl⟩ : ∃ a b c d e f g h, zs = [a, b, c, d, e, f, g, h] := by
    match zs, hlen with
    | [a, b, c, d, e, f, g, h], _ => exact ⟨a, b, c, d, e, f, g, h, rfl⟩
  revert a b c d e f g h
  decide +kernel

theorem renderV6_eq (v : Nat) : renderV6 v = textV6 v := by
  have hsh := fun sh => shiftRight_and_eq v sh 16
  norm_num at hsh
  have hgroups : ([7, 6, 5, 4, 3, 2, 1, 0].map fun i => (v >>> (i * 16)) &&& 0xffff) =
      toGroups 16 8 v := by
    simp [toGroups, hsh, Nat.div_div_eq_div_mul]
  have hpat : (((toGroups 16 8 v).map (· == 0)).map fun z => if z then 0 else 1).map (· == 0) =
      (toGroups 16 8 v).map (· == 0) := by
    rw [List.map_map, List.map_map]
    refine List.map_congr_left fun g _ => ?_
    cases hg : g == 0 <;> simp [hg]
  have hrun := bestRun_eq_longestRun ((toGroups 16 8 v).map (· == 0)) (by simp)
  rw [bestRun_congr hpat] at hrun
  rw [renderV6, hgroups, textV6, joinFields, length_toGroups]
  rcases hrun with ⟨h1, h2⟩ | h
  · simp only [h1, h2, if_true]
  · simp only [h]

end Obliguard.IpValidation

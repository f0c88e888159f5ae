import Mathlib.Data.Nat.Log
import Mathlib.Data.Rat.Floor
import Mathlib.Tactic.Linarith
import Mathlib.Tactic.Positivity
import Mathlib.Tactic.Ring

/-!
# Numbers of JavaScript

A finite double is its exact value, a rational number; the two zeros are one. `JsNumber.round` is the rounding of the
standard, to the nearest double and of two to the one with an even significand; a whole number below 2⁵³ is a double
(`round_int`). `numberText` is `String(x)`: the fewest digits that round to the number.
-/

namespace Obliguard

inductive JsNumber
  | nan
  | infinity (negative : Bool)
  | finite (x : ℚ)
deriving DecidableEq

/-- The nearest whole number, of two the even one. -/
def roundEven (q : ℚ) : ℤ :=
  let low := q.floor
  if q - low < 1 / 2 then low
  else if q - low = 1 / 2 ∧ low % 2 = 0 then low
  else low + 1

/-- The power of a whole exponent. -/
def ratPow (b : Nat) (e : ℤ) : ℚ := if 0 ≤ e then (b ^ e.toNat : Nat) else 1 / (b ^ (-e).toNat : Nat)

/-- The exponent of the greatest power of `b` that is at most `q`. -/
def floorLog (b : Nat) (q : ℚ) : ℤ :=
  let e : ℤ := Nat.log b q.num.natAbs - Nat.log b q.den
  if ratPow b e ≤ q then e else e - 1

/-- The distance of the doubles around `q`: 53 bits of significand, and no less than 2⁻¹⁰⁷⁴. -/
def ulp (q : ℚ) : ℚ := ratPow 2 (max (floorLog 2 |q| - 52) (-1074))

/-- The double nearest to `q`; the numbers from 2¹⁰²⁴ on are infinite. -/
def JsNumber.round (q : ℚ) : JsNumber :=
  if q = 0 then .finite 0
  else
    let x := roundEven (q / ulp q) * ulp q
    if |x| < ratPow 2 1024 then .finite x else .infinity (q < 0)

/-! ## Whole numbers -/

theorem ratPow_le (m n : Nat) (h : m ≤ n) : ((2 ^ m : Nat) : ℚ) ≤ ratPow 2 n := by
  rw [ratPow, if_pos (Int.natCast_nonneg n), Int.toNat_natCast]
  exact Nat.cast_le.mpr (Nat.pow_le_pow_right Nat.two_pos h)

theorem roundEven_int (n : ℤ) : roundEven n = n := by
  rw [roundEven, Rat.floor_intCast, sub_self]
  norm_num

theorem ulp_int {n : ℤ} (h0 : n ≠ 0) (h : n.natAbs < 2 ^ 53) : ∃ k : Nat, ulp n = 1 / (2 ^ k : Nat) := by
  have hlog : floorLog 2 |(n : ℚ)| ≤ 52 := by
    have habs : |(n : ℚ)| = ((n.natAbs : ℤ) : ℚ) := by
      rw [Int.natCast_natAbs, Int.cast_abs]
    have hlt : Nat.log 2 n.natAbs ≤ 52 := by
      have := Nat.log_lt_of_lt_pow (Int.natAbs_ne_zero.mpr h0) h
      omega
    rw [habs, floorLog]
    simp only [Rat.num_intCast, Rat.den_intCast, Nat.log_one_right, Int.natAbs_natCast]
    split <;> omega
  rw [ulp, ratPow]
  by_cases hpos : 0 ≤ max (floorLog 2 |(n : ℚ)| - 52) (-1074)
  · refine ⟨0, ?_⟩
    have hzero : max (floorLog 2 |(n : ℚ)| - 52) (-1074) = 0 := by omega
    rw [if_pos hpos, hzero]
    norm_num
  · exact ⟨_, if_neg hpos⟩

/-- A whole number below 2⁵³ is a double. -/
theorem round_int {n : ℤ} (h : n.natAbs < 2 ^ 53) : JsNumber.round n = .finite n := by
  rw [JsNumber.round]
  by_cases h0 : n = 0
  · rw [h0]
    rfl
  · obtain ⟨k, hk⟩ := ulp_int h0 h
    have hne : (n : ℚ) ≠ 0 := Int.cast_ne_zero.mpr h0
    have hpow : ((2 ^ k : Nat) : ℚ) ≠ 0 := by positivity
    have hquot : (n : ℚ) / ulp n = ((n * (2 ^ k : Nat) : ℤ) : ℚ) := by
      rw [hk]
      push_cast
      field_simp
    have hback : (roundEven ((n : ℚ) / ulp n) : ℚ) * ulp n = n := by
      rw [hquot, roundEven_int, hk]
      push_cast
      field_simp
    have hsmall : |(n : ℚ)| < ratPow 2 1024 := by
      have hlt : ((n.natAbs : ℤ) : ℚ) < ((2 ^ 53 : Nat) : ℚ) := by exact_mod_cast h
      rw [← Int.cast_abs, ← Int.natCast_natAbs]
      exact lt_of_lt_of_le hlt (ratPow_le 53 1024 (by norm_num))
    rw [if_neg hne, hback, if_pos hsmall]

/-! ## Digits -/

/-- `s` digits stand for the number `s * 10 ^ (n - k)`. -/
def decimalValue (s : Nat) (n : ℤ) (k : Nat) : ℚ := s * ratPow 10 (n - k)

/-- Of the `k` digits around a positive number those that round to it, the nearest ones first. -/
def digitsOf (x : ℚ) (n : ℤ) (k : Nat) : Option Nat :=
  let scaled := x / ratPow 10 (n - k)
  let low := scaled.floor.toNat
  let nearest := (roundEven scaled).toNat
  [nearest, low, low + 1].find? fun s => JsNumber.round (decimalValue s n k) = .finite x

/-- The fewest digits of a positive number, with the place of its point; 17 digits are always enough. -/
def shortest (x : ℚ) : List Char × ℤ :=
  let n := floorLog 10 x + 1
  let found := (List.range 17).findSome? fun i => (digitsOf x n (i + 1)).map fun s => (s, i + 1)
  match found with
  -- rounded up to a power of ten
  | some (s, k) => if s = 10 ^ k then (['1'], n + 1) else (Nat.toDigits 10 s, n)
  | none => ([], n)

/-- `Number::toString` of a finite number: whole numbers below 2⁵³ have all their digits. -/
def numberText (x : ℚ) : List Char :=
  let sign := if x < 0 then ['-'] else []
  if x.den = 1 ∧ x.num.natAbs < 2 ^ 53 then sign ++ Nat.toDigits 10 x.num.natAbs
  else
    let (digits, n) := shortest |x|
    let k := digits.length
    sign ++
      if k ≤ n ∧ n ≤ 21 then digits ++ List.replicate (n - k).toNat '0'
      else if 0 < n ∧ n ≤ 21 then digits.take n.toNat ++ '.' :: digits.drop n.toNat
      else if -6 < n ∧ n ≤ 0 then '0' :: '.' :: (List.replicate (-n).toNat '0' ++ digits)
      else
        let exponent := 'e' :: (if n - 1 < 0 then '-' else '+') :: Nat.toDigits 10 (n - 1).natAbs
        if k = 1 then digits ++ exponent else digits.take 1 ++ '.' :: digits.drop 1 ++ exponent

/-- A character of the text of a number. -/
def NumberChar (c : Char) : Prop := c.isDigit = true ∨ c ∈ ['+', '-', '.', 'e']

theorem numberChar_toDigits (n : Nat) : ∀ c ∈ Nat.toDigits 10 n, NumberChar c := fun _ hc =>
  .inl (Nat.isDigit_of_mem_toDigits (by norm_num) (Nat.le_refl 10) hc)

theorem numberChar_shortest (x : ℚ) : ∀ c ∈ (shortest x).1, NumberChar c := by
  rw [shortest]
  split
  · split
    · simp [NumberChar]
    · exact numberChar_toDigits _
  · simp

theorem numberChar_numberText (x : ℚ) : ∀ c ∈ numberText x, NumberChar c := by
  have hshort := numberChar_shortest |x|
  have hsign : ∀ c ∈ (if x < 0 then ['-'] else []), NumberChar c := by
    intro c hc
    split at hc
    · exact .inr (by rw [List.mem_singleton.mp hc]; decide)
    · contradiction
  have hzeros : ∀ (m : Nat), ∀ c ∈ List.replicate m '0', NumberChar c := fun m c hc =>
    .inl (by rw [List.eq_of_mem_replicate hc]; decide)
  have hexponent : ∀ (n : ℤ), ∀ c ∈ 'e' :: (if n - 1 < 0 then '-' else '+') :: Nat.toDigits 10 (n - 1).natAbs,
      NumberChar c := by
    intro n c hc
    rcases List.mem_cons.mp hc with rfl | hc
    · exact .inr (by decide)
    · rcases List.mem_cons.mp hc with rfl | hc
      · split
        · exact .inr (by decide)
        · exact .inr (by decide)
      · exact numberChar_toDigits _ c hc
  have hpoint : NumberChar '.' := .inr (by decide)
  rw [numberText]
  generalize shortest |x| = d at hshort ⊢
  obtain ⟨digits, n⟩ := d
  dsimp only at hshort ⊢
  intro c hc
  split at hc
  · rcases List.mem_append.mp hc with hc | hc
    · exact hsign c hc
    · exact numberChar_toDigits _ c hc
  · rcases List.mem_append.mp hc with hc | hc
    · exact hsign c hc
    · split at hc
      · rcases List.mem_append.mp hc with hc | hc
        · exact hshort c hc
        · exact hzeros _ c hc
      · split at hc
        · rcases List.mem_append.mp hc with hc | hc
          · exact hshort c (List.mem_of_mem_take hc)
          · rcases List.mem_cons.mp hc with rfl | hc
            · exact hpoint
            · exact hshort c (List.mem_of_mem_drop hc)
        · split at hc
          · rcases List.mem_cons.mp hc with rfl | hc
            · exact .inl (by decide)
            · rcases List.mem_cons.mp hc with rfl | hc
              · exact hpoint
              · rcases List.mem_append.mp hc with hc | hc
                · exact hzeros _ c hc
                · exact hshort c hc
          · split at hc
            · rcases List.mem_append.mp hc with hc | hc
              · exact hshort c hc
              · exact hexponent n c hc
            · rcases List.mem_append.mp hc with hc | hc
              · rcases List.mem_append.mp hc with hc | hc
                · exact hshort c (List.mem_of_mem_take hc)
                · rcases List.mem_cons.mp hc with rfl | hc
                  · exact hpoint
                  · exact hshort c (List.mem_of_mem_drop hc)
              · exact hexponent n c hc

end Obliguard

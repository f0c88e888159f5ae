import Mathlib.Data.List.Induction
import Mathlib.Tactic.Ring
import Mathlib.Tactic.IntervalCases

/-!
# Numerals and fixed-width groups

Two ways of writing a natural number that text formats of addresses use.

* `ofDigits b cs` reads a list of digit characters in base `b ≤ 16`, and `ofDigits_toDigits` says
  that it inverts `Nat.toDigits`.
* `toGroups k n v` cuts a number into `n` groups of `k` bits, most significant first, and
  `ofGroups k` puts them together again (`ofGroups_toGroups`, `toGroups_ofGroups`).
-/

namespace Obliguard.Numeral

/-! ## Digits -/

/-- The value of a decimal or hexadecimal digit, upper or lower case. -/
def digitVal (c : Char) : Option Nat :=
  if '0' ≤ c ∧ c ≤ '9' then some (c.toNat - 48)
  else if 'a' ≤ c ∧ c ≤ 'f' then some (c.toNat - 87)
  else if 'A' ≤ c ∧ c ≤ 'F' then some (c.toNat - 55)
  else none

/-- `c` is a digit of base `b`. -/
def isDigit (b : Nat) (c : Char) : Bool := (digitVal c).any (· < b)

/-- The number written by the digits `cs` in base `b`, read from the left. -/
def ofDigits (b : Nat) (cs : List Char) : Nat :=
  cs.foldl (fun v c => v * b + (digitVal c).getD 0) 0

theorem isDigit_iff {b : Nat} {c : Char} :
    isDigit b c = true ↔ ∃ d, digitVal c = some d ∧ d < b := by
  simp [isDigit, Option.any_eq_true]

theorem isAlphanum_of_isDigit {c : Char} (h : isDigit 16 c = true) : c.isAlphanum = true := by
  obtain ⟨d, hd, -⟩ := isDigit_iff.mp h
  delta Char.isAlphanum Char.isAlpha Char.isUpper Char.isLower Char.isDigit
  simp only [Bool.or_eq_true, Bool.and_eq_true, decide_eq_true_eq, ge_iff_le]
  rw [digitVal] at hd
  split at hd
  · rename_i hc
    exact .inr hc
  · split at hd
    · rename_i hc
      exact .inl (.inr ⟨hc.1, Char.le_trans hc.2 (by decide)⟩)
    · split at hd
      · rename_i hc
        exact .inl (.inl ⟨hc.1, Char.le_trans hc.2 (by decide)⟩)
      · contradiction

theorem digitVal_digitChar (d : Nat) (hd : d < 16) : digitVal (Nat.digitChar d) = some d := by
  interval_cases d <;> decide

theorem isDigit_digitChar {b d : Nat} (hb : b ≤ 16) (hd : d < b) :
    isDigit b (Nat.digitChar d) = true := by
  simp [isDigit, digitVal_digitChar d (by omega), hd]

theorem ofDigits_append_singleton (b : Nat) (cs : List Char) (c : Char) :
    ofDigits b (cs ++ [c]) = ofDigits b cs * b + (digitVal c).getD 0 := by
  simp [ofDigits]

theorem ofDigits_toDigits {b : Nat} (h1 : 1 < b) (hb : b ≤ 16) (n : Nat) :
    ofDigits b (Nat.toDigits b n) = n := by
  induction n using Nat.strong_induction_on with
  | _ n ih =>
    rw [Nat.toDigits_eq_if h1]
    split
    · rename_i hlt
      simp [ofDigits, digitVal_digitChar n (by omega)]
    · rename_i hge
      have hlt : n / b < n := Nat.div_lt_self (by omega) h1
      rw [ofDigits_append_singleton, ih _ hlt,
        digitVal_digitChar _ (lt_of_lt_of_le (Nat.mod_lt n (by omega)) hb)]
      exact Nat.div_add_mod' n b

theorem isDigit_of_mem_toDigits {b : Nat} (h1 : 1 < b) (hb : b ≤ 16) (n : Nat) :
    ∀ c ∈ Nat.toDigits b n, isDigit b c = true := by
  induction n using Nat.strong_induction_on with
  | _ n ih =>
    intro c hc
    rw [Nat.toDigits_eq_if h1] at hc
    split at hc
    · rename_i hlt
      rw [List.mem_singleton] at hc
      rw [hc]
      exact isDigit_digitChar hb hlt
    · rename_i hge
      rcases List.mem_append.mp hc with hc | hc
      · exact ih _ (Nat.div_lt_self (by omega) h1) c hc
      · rw [List.mem_singleton] at hc
        rw [hc]
        exact isDigit_digitChar hb (Nat.mod_lt n (by omega))

theorem not_mem_toDigits {b : Nat} (h1 : 1 < b) (hb : b ≤ 16) (n : Nat) {c : Char}
    (hc : isDigit 16 c = false) : c ∉ Nat.toDigits b n := by
  intro hmem
  obtain ⟨d, hd, hlt⟩ := isDigit_iff.mp (isDigit_of_mem_toDigits h1 hb n c hmem)
  have : isDigit 16 c = true := isDigit_iff.mpr ⟨d, hd, by omega⟩
  rw [hc] at this
  contradiction

theorem ofDigits_lt {b k : Nat} (hb : 0 < b) :
    ∀ cs : List Char, cs.length ≤ k → (∀ c ∈ cs, isDigit b c = true) → ofDigits b cs < b ^ k := by
  intro cs
  induction cs using List.reverseRecOn generalizing k with
  | nil => intro _ _; simpa [ofDigits] using Nat.pow_pos hb
  | append_singleton cs c ih =>
    intro hlen hdig
    obtain ⟨k, rfl⟩ : ∃ j, k = j + 1 := ⟨k - 1, by simp at hlen; omega⟩
    have hcs := ih (k := k) (by simpa using hlen) (fun x hx => hdig x (by simp [hx]))
    obtain ⟨d, hd, hlt⟩ := isDigit_iff.mp (hdig c (by simp))
    rw [ofDigits_append_singleton, hd, Option.getD_some, pow_succ]
    calc ofDigits b cs * b + d < ofDigits b cs * b + b := by omega
      _ = (ofDigits b cs + 1) * b := by ring
      _ ≤ b ^ k * b := Nat.mul_le_mul_right b hcs

theorem pow_le_ofDigits {b d : Nat} {c : Char} (hc : digitVal c = some d) (hd : 0 < d) :
    ∀ cs : List Char, b ^ cs.length ≤ ofDigits b (c :: cs) := by
  intro cs
  induction cs using List.reverseRecOn with
  | nil => simpa [ofDigits, hc, Nat.one_le_iff_ne_zero, Nat.pos_iff_ne_zero] using hd
  | append_singleton cs c ih =>
    rw [← List.cons_append, ofDigits_append_singleton, List.length_append, List.length_singleton,
      pow_succ]
    exact (Nat.mul_le_mul_right b ih).trans (Nat.le_add_right _ _)

/-! ## Fixed-width groups -/

/-- The `n` lowest groups of `k` bits of `v`, most significant first. -/
def toGroups (k : Nat) : Nat → Nat → List Nat
  | 0, _ => []
  | n + 1, v => toGroups k n (v / 2 ^ k) ++ [v % 2 ^ k]

/-- The number whose groups of `k` bits are `gs`, most significant first. -/
def ofGroups (k : Nat) (gs : List Nat) : Nat := gs.foldl (fun v g => v * 2 ^ k + g) 0

@[simp] theorem ofGroups_nil (k : Nat) : ofGroups k [] = 0 := rfl

theorem ofGroups_append_singleton (k : Nat) (gs : List Nat) (g : Nat) :
    ofGroups k (gs ++ [g]) = ofGroups k gs * 2 ^ k + g := by
  simp [ofGroups]

@[simp] theorem length_toGroups (k n v : Nat) : (toGroups k n v).length = n := by
  induction n generalizing v with
  | zero => rfl
  | succ n ih => simp [toGroups, ih]

theorem toGroups_lt (k n v : Nat) : ∀ g ∈ toGroups k n v, g < 2 ^ k := by
  induction n generalizing v with
  | zero => simp [toGroups]
  | succ n ih =>
    intro g hg
    rcases List.mem_append.mp hg with hg | hg
    · exact ih _ g hg
    · rw [List.mem_singleton] at hg
      rw [hg]
      exact Nat.mod_lt _ (Nat.two_pow_pos k)

theorem ofGroups_toGroups (k n v : Nat) (hv : v < 2 ^ (k * n)) :
    ofGroups k (toGroups k n v) = v := by
  induction n generalizing v with
  | zero => simp at hv; simp [toGroups, hv]
  | succ n ih =>
    have hdiv : v / 2 ^ k < 2 ^ (k * n) := by
      rw [Nat.div_lt_iff_lt_mul (Nat.two_pow_pos k), ← pow_add]
      exact hv
    rw [toGroups, ofGroups_append_singleton, ih _ hdiv]
    exact Nat.div_add_mod' v (2 ^ k)

theorem ofGroups_lt (k : Nat) (gs : List Nat) (h : ∀ g ∈ gs, g < 2 ^ k) :
    ofGroups k gs < 2 ^ (k * gs.length) := by
  induction gs using List.reverseRecOn with
  | nil => simp
  | append_singleton gs g ih =>
    have hgs := ih (fun x hx => h x (by simp [hx]))
    have hg := h g (by simp)
    rw [ofGroups_append_singleton, List.length_append, List.length_singleton, Nat.mul_add, pow_add,
      Nat.mul_one]
    calc ofGroups k gs * 2 ^ k + g < ofGroups k gs * 2 ^ k + 2 ^ k := by omega
      _ = (ofGroups k gs + 1) * 2 ^ k := by ring
      _ ≤ 2 ^ (k * gs.length) * 2 ^ k := Nat.mul_le_mul_right _ hgs

theorem toGroups_ofGroups (k : Nat) (gs : List Nat) (h : ∀ g ∈ gs, g < 2 ^ k) :
    toGroups k gs.length (ofGroups k gs) = gs := by
  induction gs using List.reverseRecOn with
  | nil => rfl
  | append_singleton gs g ih =>
    have hg := h g (by simp)
    have hpos : 0 < 2 ^ k := Nat.two_pow_pos k
    rw [List.length_append, List.length_singleton, toGroups, ofGroups_append_singleton,
      Nat.mul_comm, Nat.mul_add_div hpos, Nat.div_eq_of_lt hg, Nat.add_zero,
      ih (fun x hx => h x (by simp [hx])), Nat.mul_add_mod, Nat.mod_eq_of_lt hg]

theorem shiftLeft_or_eq {k g : Nat} (v : Nat) (hg : g < 2 ^ k) :
    (v <<< k) ||| g = v * 2 ^ k + g := by
  rw [← Nat.shiftLeft_add_eq_or_of_lt hg, Nat.shiftLeft_eq]

end Obliguard.Numeral

import Obliguard.Base.Target

/-!
# Numbers in Go

`strconv.Atoi`, and the length of a text in bytes.
-/

namespace Obliguard.Agent

open Numeral AddrText Text

/-- A sign and the rest of a number. -/
def signed : List Char → Bool × List Char
  | '-' :: s => (true, s)
  | '+' :: s => (false, s)
  | s => (false, s)

/-- The number of 64 bits with a sign and digits. -/
def int64 (negative : Bool) (digits : List Char) : Option Int :=
  let n := ofDigits 10 digits
  if negative then (if n ≤ 2 ^ 63 then some (-(n : Int)) else none)
  else if n < 2 ^ 63 then some n else none

/-- `strconv.Atoi`. -/
def atoi (s : List Char) : Option Int :=
  let (negative, digits) := signed s
  if digits ≠ [] ∧ digits.all (isDigit 10) then int64 negative digits else none

/-- The length of a text in bytes, as Go counts it. -/
def byteLength (s : List Char) : Nat := (s.map Char.utf8Size).sum

theorem byteLength_digits {s : List Char} (h : s.all (isDigit 10) = true) : byteLength s = s.length := by
  induction s with
  | nil => rfl
  | cons c s ih =>
    rw [List.all_cons, Bool.and_eq_true] at h
    have hc : c.utf8Size = 1 := by
      rw [Char.utf8Size_eq_one_iff]
      have hlt := isTargetChar_lt (Or.inr (Or.inr (Or.inr (isDigit_mono (by omega) h.1))))
      show c.toNat ≤ 127
      omega
    have htl := ih h.2
    rw [byteLength] at htl ⊢
    rw [List.map_cons, List.sum_cons, List.length_cons, hc, htl]
    omega

theorem isDigit_sign : isDigit 10 '+' = false ∧ isDigit 10 '-' = false := by decide

theorem signed_digits {s : List Char} (h : s.all (isDigit 10) = true) : signed s = (false, s) := by
  unfold signed
  split
  · rw [List.all_cons, isDigit_sign.2] at h
    contradiction
  · rw [List.all_cons, isDigit_sign.1] at h
    contradiction
  · rfl

theorem atoi_digits {s : List Char} (hne : s ≠ []) (h : s.all (isDigit 10) = true) (hlen : s.length ≤ 18) :
    atoi s = some (ofDigits 10 s : Int) := by
  have hlt : ofDigits 10 s < 10 ^ 18 := ofDigits_lt (by omega) s hlen (List.all_eq_true.mp h)
  have hsmall : ofDigits 10 s < 2 ^ 63 := by omega
  rw [atoi, signed_digits h]
  dsimp only
  rw [if_pos ⟨hne, h⟩, int64, if_neg (by decide), if_pos hsmall]

end Obliguard.Agent

import Mathlib.Algebra.GroupWithZero.Nat
import Mathlib.Data.List.Basic
import Mathlib.Tactic.Common

/-!
# White space and trimming

The white space that JavaScript's `trim` and `\s` recognise (ECMAScript `WhiteSpace` and
`LineTerminator`) and the one that Go's `strings.TrimSpace` recognises (Unicode `White_Space`).
They differ at two characters only: U+FEFF is white space in JavaScript, U+0085 in Go.
-/

namespace Obliguard.Text

/-- The code points both languages take for white space. -/
def sharedSpace (n : Nat) : Bool :=
  (9 ≤ n && n ≤ 13) || n == 0x20 || n == 0xa0 || n == 0x1680 || (0x2000 ≤ n && n ≤ 0x200a) ||
    n == 0x2028 || n == 0x2029 || n == 0x202f || n == 0x205f || n == 0x3000

/-- White space in JavaScript. -/
def isJsSpace (c : Char) : Bool := sharedSpace c.toNat || c.toNat == 0xfeff

/-- White space in Go. -/
def isGoSpace (c : Char) : Bool := sharedSpace c.toNat || c.toNat == 0x85

/-- Remove the characters satisfying `p` at both ends. -/
def trimBy (p : Char → Bool) (s : List Char) : List Char :=
  ((s.dropWhile p).reverse.dropWhile p).reverse

/-- JavaScript's `String.prototype.trim`. -/
def jsTrim (s : List Char) : List Char := trimBy isJsSpace s

/-- Go's `strings.TrimSpace`. -/
def goTrim (s : List Char) : List Char := trimBy isGoSpace s

/-- The length of a string in UTF-16 code units, as JavaScript counts it. -/
def utf16Length (s : List Char) : Nat := (s.map fun c => if c.toNat < 0x10000 then 1 else 2).sum

/-- JavaScript's `slice(0, n)`, as it is stored: a surrogate pair cut in two becomes U+FFFD. -/
def utf16Take : Nat → List Char → List Char
  | 0, _ => []
  | _, [] => []
  | n + 1, c :: cs =>
    if c.toNat < 0x10000 then c :: utf16Take n cs
    else match n with
      | 0 => [Char.ofNat 0xfffd]
      | m + 1 => c :: utf16Take m cs

theorem trimBy_eq_self {p : Char → Bool} {s : List Char} (h : ∀ c ∈ s, p c = false) :
    trimBy p s = s := by
  have hdrop : ∀ t : List Char, (∀ c ∈ t, p c = false) → t.dropWhile p = t := by
    intro t ht
    cases t with
    | nil => rfl
    | cons c t => simp [List.dropWhile, ht c (by simp)]
  rw [trimBy, hdrop s h, hdrop s.reverse (fun c hc => h c (by simpa using hc)), List.reverse_reverse]

theorem trimBy_congr {p q : Char → Bool} {s : List Char} (h : ∀ c ∈ s, p c = q c) :
    trimBy p s = trimBy q s := by
  have hdrop : ∀ t : List Char, (∀ c ∈ t, p c = q c) → t.dropWhile p = t.dropWhile q := by
    intro t ht
    induction t with
    | nil => rfl
    | cons c t ih =>
      simp only [List.dropWhile, ht c (by simp)]
      split
      · exact ih fun d hd => ht d (by simp [hd])
      · rfl
  have hsub : ∀ c ∈ (s.dropWhile q).reverse, p c = q c := fun c hc =>
    h c ((List.dropWhile_suffix q).subset (by simpa using hc))
  rw [trimBy, trimBy, hdrop s h, hdrop _ hsub]

theorem jsTrim_eq_goTrim {s : List Char} (h : ∀ c ∈ s, c.toNat ≠ 0xfeff ∧ c.toNat ≠ 0x85) :
    jsTrim s = goTrim s := by
  apply trimBy_congr
  intro c hc
  obtain ⟨h1, h2⟩ := h c hc
  rw [isJsSpace, isGoSpace, beq_false_of_ne h1, beq_false_of_ne h2]

theorem utf16Length_eq_length {s : List Char} (h : ∀ c ∈ s, c.toNat < 0x10000) :
    utf16Length s = s.length := by
  induction s with
  | nil => rfl
  | cons c s ih =>
    have htl := ih fun d hd => h d (by simp [hd])
    simp only [utf16Length, List.map_cons, List.sum_cons, List.length_cons] at htl ⊢
    rw [if_pos (h c (by simp)), htl]
    omega

end Obliguard.Text

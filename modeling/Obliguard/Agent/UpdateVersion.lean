import Mathlib.Data.List.TakeWhile
import Obliguard.Agent.Strconv

/-!
# The version an agent updates to

`parseSemver`, `isStrictlyNewer` and `startUpdateIfNewer` of `agent/main.go`. `parseSemver` ignores the
errors of `strconv.Atoi`, so what counts is the value that comes with an error: 0 for a syntax error, and
the nearest number of 64 bits for a row of digits that is out of range, which is noticed before the
characters after it are looked at.
-/

namespace Obliguard.Agent

open Numeral

/-! ## `strconv.Atoi` with its error ignored -/

/-- The value of `strconv.ParseUint` in base 10 and 64 bits, from the digits read so far. -/
def parseUintValue : Nat → List Char → Nat
  | n, [] => n
  | n, c :: s =>
    if isDigit 10 c then
      let n := n * 10 + (digitVal c).getD 0
      if 2 ^ 64 ≤ n then 2 ^ 64 - 1 else parseUintValue n s
    else 0

/-- The value of `strconv.Atoi`. -/
def atoiValue (s : List Char) : Int :=
  let (negative, digits) := signed s
  let n := parseUintValue 0 digits
  if negative then (if 2 ^ 63 < n then -2 ^ 63 else -(n : Int))
  else if 2 ^ 63 ≤ n then 2 ^ 63 - 1 else n

/-- The digits overflow 64 bits before a character that is no digit. -/
def Overruns (s : List Char) : Prop :=
  2 ^ 64 ≤ ofDigits 10 ((signed s).2.takeWhile (isDigit 10)) ∧ (signed s).2.all (isDigit 10) = false

instance (s : List Char) : Decidable (Overruns s) := inferInstanceAs (Decidable (_ ∧ _))

/-- The number read by the digits `cs` after `n`. -/
def digitsFrom (n : Nat) (cs : List Char) : Nat := cs.foldl (fun v c => v * 10 + (digitVal c).getD 0) n

theorem le_digitsFrom (n : Nat) (cs : List Char) : n ≤ digitsFrom n cs := by
  induction cs generalizing n with
  | nil => exact le_rfl
  | cons c cs ih =>
    have hstep : n ≤ n * 10 + (digitVal c).getD 0 := by omega
    exact hstep.trans (ih _)

theorem parseUintValue_eq {n : Nat} (hn : n < 2 ^ 64) (s : List Char) : parseUintValue n s =
    if 2 ^ 64 ≤ digitsFrom n (s.takeWhile (isDigit 10)) then 2 ^ 64 - 1
    else if s.all (isDigit 10) then digitsFrom n s else 0 := by
  induction s generalizing n with
  | nil =>
    have hnot : ¬ 2 ^ 64 ≤ n := not_le.mpr hn
    exact (if_neg hnot).symm
  | cons c s ih =>
    rw [parseUintValue]
    by_cases hc : isDigit 10 c = true
    · rw [if_pos hc, List.takeWhile_cons_of_pos hc, List.all_cons, hc, Bool.true_and]
      dsimp only
      by_cases hover : 2 ^ 64 ≤ n * 10 + (digitVal c).getD 0
      · rw [if_pos hover, if_pos]
        exact hover.trans (le_digitsFrom _ _)
      · rw [if_neg hover, ih (not_le.mp hover)]
        rfl
    · have hc' : isDigit 10 c = false := Bool.not_eq_true _ ▸ hc
      have hnot : ¬ 2 ^ 64 ≤ n := not_le.mpr hn
      rw [if_neg hc, List.takeWhile_cons_of_neg hc, List.all_cons, hc', Bool.false_and,
        if_neg Bool.false_ne_true]
      exact (if_neg hnot).symm

theorem atoiValue_of_atoi {s : List Char} {n : Int} (h : atoi s = some n) : atoiValue s = n := by
  unfold atoi at h
  unfold atoiValue
  generalize signed s = sg at h
  obtain ⟨negative, digits⟩ := sg
  dsimp only at h ⊢
  split at h
  · rename_i hdigits
    have htake : digits.takeWhile (isDigit 10) = digits :=
      List.takeWhile_eq_self_iff.mpr (List.all_eq_true.mp hdigits.2)
    have hvalue : digitsFrom 0 digits = ofDigits 10 digits := rfl
    rw [parseUintValue_eq (by norm_num), htake, hvalue, if_pos hdigits.2]
    unfold int64 at h
    cases negative with
    | true =>
      rw [if_pos rfl] at h ⊢
      split at h
      · rename_i hle
        have hrange : ¬ 2 ^ 64 ≤ ofDigits 10 digits := by omega
        rw [if_neg hrange, if_neg (by omega)]
        exact Option.some.inj h
      · contradiction
    | false =>
      rw [if_neg Bool.false_ne_true] at h ⊢
      split at h
      · rename_i hlt
        have hrange : ¬ 2 ^ 64 ≤ ofDigits 10 digits := by omega
        rw [if_neg hrange, if_neg (by omega)]
        exact Option.some.inj h
      · contradiction
  · contradiction

/-! ## Versions -/

/-- The text before the first `.` and the text after it. -/
def cutDot (s : List Char) : Option (List Char × List Char) :=
  match s.dropWhile (· ≠ '.') with
  | _ :: rest => some (s.takeWhile (· ≠ '.'), rest)
  | [] => none

/-- `strings.SplitN(v, ".", 3)` where it gives three parts. -/
def splitN3 (s : List Char) : Option (List Char × List Char × List Char) :=
  (cutDot s).bind fun (a, s) => (cutDot s).map fun (b, c) => (a, b, c)

/-- `strings.TrimPrefix(v, "v")`. -/
def trimV : List Char → List Char
  | 'v' :: s => s
  | s => s

def parseSemver (v : List Char) : Int × Int × Int :=
  match splitN3 (trimV v) with
  | some (major, minor, patch) => (atoiValue major, atoiValue minor, atoiValue patch)
  | none => (0, 0, 0)

/-- `isStrictlyNewer` returns true only when remote is strictly greater than current. -/
def isStrictlyNewer (remote current : List Char) : Bool :=
  let (rMaj, rMin, rPatch) := parseSemver remote
  let (cMaj, cMin, cPatch) := parseSemver current
  if rMaj ≠ cMaj then cMaj < rMaj
  else if rMin ≠ cMin then cMin < rMin
  else cPatch < rPatch

/-- One to nine digits, and the text after them; they are followed by no digit. -/
def digitRun (s : List Char) : Option (List Char × List Char) :=
  let digits := s.takeWhile (isDigit 10)
  if 1 ≤ digits.length ∧ digits.length ≤ 9 then some (digits, s.dropWhile (isDigit 10)) else none

/-- `.` and the text after it. -/
def dotted : List Char → Option (List Char)
  | '.' :: s => some s
  | _ => none

/-- `^v?[0-9]{1,9}\.[0-9]{1,9}\.[0-9]{1,9}`, up to a character that is no digit: the three numbers and the
text after them. -/
def versionShape (v : List Char) : Option (List Char × List Char × List Char × List Char) :=
  (digitRun (trimV v)).bind fun (major, s) => (dotted s).bind digitRun |>.bind fun (minor, s) =>
    (dotted s).bind digitRun |>.map fun (patch, s) => (major, minor, patch, s)

/-- `updateVersionRe` is the only accepted shape of an update target. -/
def updateVersionRe (v : List Char) : Bool := (versionShape v).any fun (_, _, _, rest) => rest == []

/-- `startUpdateIfNewer` of an agent that runs `agentVersion`: whether the pipeline is started, and
`updateInProgress` after it. -/
def startUpdateIfNewer (agentVersion : List Char) (updateInProgress : Bool) (remoteVersion : List Char) :
    Bool × Bool :=
  if !updateVersionRe remoteVersion then (false, updateInProgress)
  else if !isStrictlyNewer remoteVersion agentVersion then (false, updateInProgress)
  else if updateInProgress then (false, true)
  else (true, true)

end Obliguard.Agent

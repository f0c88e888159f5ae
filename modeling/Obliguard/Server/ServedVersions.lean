import Obliguard.Agent.UpdateVersion
import Obliguard.Server.UpdateAttempts

/-!
# Which updates the server and the agent agree on

`isValidServedAgentVersion` and `isStrictlyNewerAgentVersion` of `utils/agentUpdate.ts` against
`startUpdateIfNewer` of the agent. The two parsers of versions are mirrors of each other, but the server
serves versions with a suffix, which the agent refuses, and a row of digits that overflows 64 bits before
another character is 0 for the server and the nearest number of 64 bits for the agent.
`served_agrees_iff` says on which versions that makes a difference.
-/

namespace Obliguard.Server

open Numeral Text Agent

/-- `MAX_AGENT_VERSION_LEN`. -/
def maxAgentVersionLen : Nat := 64

/-- `[0-9A-Za-z.+-]`. -/
def isSuffixChar (c : Char) : Bool :=
  decide ('0' ≤ c ∧ c ≤ '9') || decide ('A' ≤ c ∧ c ≤ 'Z') || decide ('a' ≤ c ∧ c ≤ 'z') || c == '.' ||
    c == '+' || c == '-'

/-- `([-+.][0-9A-Za-z.+-]*)?$`. -/
def isVersionSuffix : List Char → Bool
  | [] => true
  | c :: s => (c == '-' || c == '+' || c == '.') && s.all isSuffixChar

/-- A served agent/VERSION value we are willing to advertise. -/
def isValidServedAgentVersion (v : List Char) : Bool :=
  decide (utf16Length v ≤ maxAgentVersionLen) && (versionShape v).any fun (_, _, _, rest) => isVersionSuffix rest

/-! ## The parts of a version -/

/-- The three parts of a version, empty ones where it has fewer. -/
def versionParts (v : List Char) : List (List Char) :=
  match splitN3 (trimV v) with
  | some (major, minor, patch) => [major, minor, patch]
  | none => [[], [], []]

/-- The first list comes after the second in the order of the first difference. -/
def Above : List Int → List Int → Prop
  | r :: rs, c :: cs => c < r ∨ r = c ∧ Above rs cs
  | _, _ => False

instance decidableAbove : ∀ rs cs, Decidable (Above rs cs)
  | r :: rs, c :: cs =>
    have := decidableAbove rs cs
    inferInstanceAs (Decidable (c < r ∨ r = c ∧ Above rs cs))
  | [], _ => inferInstanceAs (Decidable False)
  | _ :: _, [] => inferInstanceAs (Decidable False)

/-- The numbers that the server reads. -/
def serverNumbers (v : List Char) : List Int := (versionParts v).map goAtoi

/-- The numbers that the agent reads. -/
def agentNumbers (v : List Char) : List Int := (versionParts v).map atoiValue

section parts
variable {s : List Char}

theorem cutDot_eq_none : cutDot s = none ↔ '.' ∉ s := by
  unfold cutDot
  cases h : s.dropWhile (· ≠ '.') with
  | nil =>
    rw [List.dropWhile_eq_nil_iff] at h
    refine iff_of_true rfl fun hmem => ?_
    simpa using h '.' hmem
  | cons c rest =>
    refine iff_of_false nofun fun hmem => ?_
    have hall : ∀ x ∈ s, (decide (x ≠ '.')) = true := fun x hx =>
      decide_eq_true fun heq => hmem (heq ▸ hx)
    rw [List.dropWhile_eq_nil_iff.mpr hall] at h
    contradiction

theorem cutDot_eq_some {a rest : List Char} (h : cutDot s = some (a, rest)) :
    s = a ++ '.' :: rest ∧ '.' ∉ a := by
  unfold cutDot at h
  cases hdrop : s.dropWhile (· ≠ '.') with
  | nil =>
    rw [hdrop] at h
    contradiction
  | cons c tail =>
    rw [hdrop] at h
    obtain ⟨rfl, rfl⟩ := Prod.mk.inj (Option.some.inj h)
    have hc : c = '.' := by
      have hhead := List.head?_dropWhile_not (fun x : Char => decide (x ≠ '.')) s
      rw [hdrop] at hhead
      simpa using hhead
    refine ⟨?_, fun hmem => ?_⟩
    · calc s = s.takeWhile (· ≠ '.') ++ s.dropWhile (· ≠ '.') := List.takeWhile_append_dropWhile.symm
        _ = s.takeWhile (· ≠ '.') ++ '.' :: tail := by rw [hdrop, hc]
    · simpa using List.mem_takeWhile_imp hmem

theorem splitOn_of_cutDot {a rest : List Char} (h : cutDot s = some (a, rest)) :
    s.splitOn '.' = a :: rest.splitOn '.' := by
  obtain ⟨rfl, ha⟩ := cutDot_eq_some h
  rw [List.splitOn_append_cons_self, List.splitOn_eq_singleton ha]
  rfl

theorem splitN3_eq (s : List Char) : splitN3 s = match s.splitOn '.' with
    | a :: b :: c :: rest => some (a, b, List.intercalate ['.'] (c :: rest))
    | _ => none := by
  unfold splitN3
  cases h : cutDot s with
  | none =>
    rw [List.splitOn_eq_singleton (cutDot_eq_none.mp h)]
    rfl
  | some p =>
    obtain ⟨a, s'⟩ := p
    rw [splitOn_of_cutDot h, Option.bind_some]
    dsimp only
    cases h' : cutDot s' with
    | none =>
      rw [List.splitOn_eq_singleton (cutDot_eq_none.mp h')]
      rfl
    | some p =>
      obtain ⟨b, s''⟩ := p
      rw [splitOn_of_cutDot h', Option.map_some]
      have hjoin : List.intercalate ['.'] (s''.splitOn '.') = s'' := List.intercalate_splitOn '.'
      cases hsplit : s''.splitOn '.' with
      | nil => exact absurd hsplit (List.splitOn_ne_nil '.' s'')
      | cons c rest =>
        rw [hsplit] at hjoin
        dsimp only
        rw [hjoin]

theorem serverNumbers_eq (v : List Char) : serverNumbers v =
    [(parseAgentSemver v).1, (parseAgentSemver v).2.1, (parseAgentSemver v).2.2] := by
  have htrim : parseAgentSemver v = match (trimV v).splitOn '.' with
      | a :: b :: c :: rest => (goAtoi a, goAtoi b, goAtoi (List.intercalate ['.'] (c :: rest)))
      | _ => (0, 0, 0) := rfl
  rw [serverNumbers, versionParts, splitN3_eq, htrim]
  cases (trimV v).splitOn '.' with
  | nil => rfl
  | cons a l =>
    cases l with
    | nil => rfl
    | cons b l =>
      cases l with
      | nil => rfl
      | cons c rest => rfl

theorem agentNumbers_eq (v : List Char) : agentNumbers v =
    [(parseSemver v).1, (parseSemver v).2.1, (parseSemver v).2.2] := by
  rw [agentNumbers, versionParts, parseSemver]
  cases splitN3 (trimV v) with
  | none => rfl
  | some p => rfl

theorem newer_iff_above (r1 r2 r3 c1 c2 c3 : Int) :
    (if r1 ≠ c1 then decide (c1 < r1) else if r2 ≠ c2 then decide (c2 < r2) else decide (c3 < r3)) = true ↔
      Above [r1, r2, r3] [c1, c2, c3] := by
  simp only [Above]
  split
  · rename_i hne
    simp [hne]
  · rename_i heq
    rw [not_not] at heq
    split
    · rename_i hne
      simp [heq, hne]
    · rename_i heq'
      rw [not_not] at heq'
      simp [heq, heq']

theorem isStrictlyNewerAgentVersion_iff (v c : List Char) :
    isStrictlyNewerAgentVersion v c = true ↔ Above (serverNumbers v) (serverNumbers c) := by
  rw [serverNumbers_eq, serverNumbers_eq, ← newer_iff_above]
  rfl

theorem isStrictlyNewer_iff (v c : List Char) :
    isStrictlyNewer v c = true ↔ Above (agentNumbers v) (agentNumbers c) := by
  rw [agentNumbers_eq, agentNumbers_eq, ← newer_iff_above]
  rfl

end parts

/-! ## One part of a reported version -/

section numbers
variable {p : List Char} {r : Int} {n : Nat}

theorem toDouble_of_lt (h : n < 2 ^ 53) : toDouble n = n := if_pos h

theorem le_toDouble (h : 2 ^ 53 ≤ n) : 2 ^ 53 ≤ toDouble n := by
  have hlog : 53 ≤ Nat.log2 n := (Nat.le_log2 (by omega)).mpr h
  have hpow : 2 ^ Nat.log2 n ≤ n := Nat.log2_self_le (by omega)
  rw [toDouble, if_neg (by omega)]
  dsimp only
  generalize hL : Nat.log2 n = L at hlog hpow
  have hsplit : 2 ^ L = 2 ^ 52 * 2 ^ (L - 52) := by
    rw [← pow_add]
    congr 1
    omega
  have hquot : 2 ^ 52 ≤ n / 2 ^ (L - 52) := by
    rw [Nat.le_div_iff_mul_le (Nat.two_pow_pos _), ← hsplit]
    exact hpow
  have hunit : 2 ≤ 2 ^ (L - 52) := by
    calc 2 = 2 ^ 1 := rfl
      _ ≤ 2 ^ (L - 52) := Nat.pow_le_pow_right (by omega) (by omega)
  have hinfinity : ∀ k ≥ 53, 2 ^ 53 ≤ 2 ^ k := fun k hk => Nat.pow_le_pow_right Nat.two_pos hk
  refine le_min ?_ (hinfinity _ (by omega))
  calc 2 ^ 53 = 2 ^ 52 * 2 := by norm_num
    _ ≤ n / 2 ^ (L - 52) * 2 ^ (L - 52) := Nat.mul_le_mul hquot hunit
    _ ≤ _ := Nat.mul_le_mul_right _ (by split <;> omega)

theorem goAtoi_eq (p : List Char) : goAtoi p =
    if (signed p).2 ≠ [] ∧ (signed p).2.all (isDigit 10) then
      if (signed p).1 then -(toDouble (ofDigits 10 (signed p).2) : Int) else toDouble (ofDigits 10 (signed p).2)
    else 0 := by
  unfold goAtoi signed
  dsimp only
  split
  · rfl
  · rfl
  · rename_i hminus hplus
    have hhead : ¬ p.head? = some '-' := by
      intro hhead
      obtain ⟨cs, hcs⟩ := List.head?_eq_some_iff.mp hhead
      exact hplus cs hcs
    rw [if_neg hhead]
    simp

theorem part_agrees (h : ¬ Overruns p) (h0 : 0 ≤ r) (hr : r < 10 ^ 9) :
    (r = goAtoi p ↔ r = atoiValue p) ∧ (goAtoi p < r ↔ atoiValue p < r) := by
  rw [goAtoi_eq, atoiValue]
  rw [Overruns] at h
  generalize signed p = sg at h
  obtain ⟨negative, digits⟩ := sg
  dsimp only at h ⊢
  rw [parseUintValue_eq (by norm_num)]
  by_cases hall : digits.all (isDigit 10) = true
  · have htake : digits.takeWhile (isDigit 10) = digits :=
      List.takeWhile_eq_self_iff.mpr (List.all_eq_true.mp hall)
    have hvalue : digitsFrom 0 digits = ofDigits 10 digits := rfl
    rw [htake, hvalue, if_pos hall]
    by_cases hnil : digits = []
    · rw [hnil]
      cases negative <;> simp [ofDigits]
    · rw [if_pos ⟨hnil, hall⟩]
      generalize ofDigits 10 digits = n
      have hround : toDouble n = n ∧ n < 2 ^ 53 ∨ 2 ^ 53 ≤ toDouble n ∧ 2 ^ 53 ≤ n := by
        rcases Nat.lt_or_ge n (2 ^ 53) with hlt | hge
        · exact .inl ⟨toDouble_of_lt hlt, hlt⟩
        · exact .inr ⟨le_toDouble hge, hge⟩
      generalize toDouble n = m at hround
      have hclamp : (if 2 ^ 64 ≤ n then 2 ^ 64 - 1 else n) = n ∨
          2 ^ 63 < (if 2 ^ 64 ≤ n then 2 ^ 64 - 1 else n) ∧ 2 ^ 64 ≤ n := by
        split
        · rename_i hover
          exact .inr ⟨by norm_num, hover⟩
        · exact .inl rfl
      generalize (if 2 ^ 64 ≤ n then 2 ^ 64 - 1 else n) = k at hclamp
      cases negative with
      | true =>
        rw [if_pos rfl, if_pos rfl]
        split <;> omega
      | false =>
        rw [if_neg Bool.false_ne_true, if_neg Bool.false_ne_true]
        split <;> omega
  · have hall' : digits.all (isDigit 10) = false := Bool.not_eq_true _ ▸ hall
    have hfits : ¬ 2 ^ 64 ≤ ofDigits 10 (digits.takeWhile (isDigit 10)) := fun hover => h ⟨hover, hall'⟩
    have hvalue : digitsFrom 0 (digits.takeWhile (isDigit 10)) =
        ofDigits 10 (digits.takeWhile (isDigit 10)) := rfl
    rw [if_neg (fun hboth => hall hboth.2), hvalue, if_neg hfits, if_neg hall]
    cases negative <;> simp

/-- Digits that overflow before another character: 0 for the server, the nearest number for the agent. -/
theorem part_overruns (h : Overruns p) :
    goAtoi p = 0 ∧ atoiValue p = if p.head? = some '-' then -2 ^ 63 else 2 ^ 63 - 1 := by
  have hneg : p.head? = some '-' ↔ (signed p).1 = true := by
    unfold signed
    split
    · exact iff_of_true rfl rfl
    · exact iff_of_false (by simp) Bool.false_ne_true
    · rename_i hminus hplus
      refine iff_of_false (fun hhead => ?_) Bool.false_ne_true
      obtain ⟨cs, hcs⟩ := List.head?_eq_some_iff.mp hhead
      exact hminus cs hcs
  obtain ⟨hover, hall⟩ := h
  have hvalue : digitsFrom 0 ((signed p).2.takeWhile (isDigit 10)) =
      ofDigits 10 ((signed p).2.takeWhile (isDigit 10)) := rfl
  refine ⟨?_, ?_⟩
  · rw [goAtoi_eq, if_neg]
    rintro ⟨-, hall'⟩
    exact absurd (hall'.symm.trans hall) Bool.false_ne_true.symm
  · simp only [hneg]
    rw [atoiValue]
    generalize signed p = sg at hover hall hvalue
    obtain ⟨negative, digits⟩ := sg
    dsimp only at hover hall hvalue ⊢
    rw [parseUintValue_eq (by norm_num), hvalue, if_pos hover]
    cases negative <;> norm_num

end numbers

/-! ## Comparisons -/

/-- At the first part where the two readings of the reported version matter they decide differently: the
parts before it are the numbers of the served version, and its digits overflow before another character.
Without a `-` the agent does not update there, with one it does; the server goes by 0. -/
inductive Misread : List Int → List (List Char) → Prop
  | later {r : Int} {rs : List Int} {p : List Char} {ps : List (List Char)} (hp : ¬ Overruns p)
      (hr : r = goAtoi p) (h : Misread rs ps) : Misread (r :: rs) (p :: ps)
  | high {r : Int} {rs : List Int} {p : List Char} {ps : List (List Char)} (hp : Overruns p)
      (hsign : p.head? ≠ some '-') (h : 0 < r ∨ r = 0 ∧ Above rs (ps.map goAtoi)) : Misread (r :: rs) (p :: ps)
  | low {r : Int} {rs : List Int} {p : List Char} {ps : List (List Char)} (hp : Overruns p)
      (hsign : p.head? = some '-') (hr : r = 0) (h : ¬ Above rs (ps.map goAtoi)) : Misread (r :: rs) (p :: ps)

theorem above_agrees_iff {rs : List Int} {ps : List (List Char)} (hrs : ∀ r ∈ rs, 0 ≤ r ∧ r < 10 ^ 9) :
    (Above rs (ps.map goAtoi) ↔ Above rs (ps.map atoiValue)) ↔ ¬ Misread rs ps := by
  induction rs generalizing ps with
  | nil => exact iff_of_true Iff.rfl nofun
  | cons r rs ih =>
    cases ps with
    | nil => exact iff_of_true Iff.rfl nofun
    | cons p ps =>
      obtain ⟨h0, hr⟩ := hrs r List.mem_cons_self
      have ih := @ih ps fun q hq => hrs q (List.mem_cons_of_mem r hq)
      simp only [List.map_cons, Above]
      by_cases hp : Overruns p
      · obtain ⟨hserver, hagent⟩ := part_overruns hp
        rw [hserver, hagent]
        by_cases hsign : p.head? = some '-'
        · rw [if_pos hsign]
          have hmis : Misread (r :: rs) (p :: ps) ↔ r = 0 ∧ ¬ Above rs (ps.map goAtoi) := by
            constructor
            · rintro (⟨hp', -, -⟩ | ⟨-, hsign', -⟩ | ⟨-, -, hr0, habove⟩)
              · exact absurd hp hp'
              · exact absurd hsign hsign'
              · exact ⟨hr0, habove⟩
            · rintro ⟨hr0, habove⟩
              exact .low hp hsign hr0 habove
          have hlow : (-2 ^ 63 : Int) < r := by omega
          have hupdates : (-2 ^ 63 : Int) < r ∨ r = -2 ^ 63 ∧ Above rs (ps.map atoiValue) := .inl hlow
          rw [hmis, iff_true_right hupdates, not_and, not_not]
          by_cases hr0 : r = 0
          · simp [hr0]
          · have hpos : 0 < r := by omega
            exact iff_of_true (.inl hpos) fun h => absurd h hr0
        · rw [if_neg hsign]
          have hmis : Misread (r :: rs) (p :: ps) ↔ 0 < r ∨ r = 0 ∧ Above rs (ps.map goAtoi) := by
            constructor
            · rintro (⟨hp', -, -⟩ | ⟨-, -, habove⟩ | ⟨-, hsign', -, -⟩)
              · exact absurd hp hp'
              · exact habove
              · exact absurd hsign' hsign
            · exact .high hp hsign
          have hhigh : ¬ ((2 : Int) ^ 63 - 1 < r ∨ r = 2 ^ 63 - 1 ∧ Above rs (ps.map atoiValue)) := by omega
          rw [hmis, iff_false_right hhigh, eq_comm]
      · obtain ⟨heq, hlt⟩ := part_agrees hp h0 hr
        rw [← heq, ← hlt]
        have hmis : Misread (r :: rs) (p :: ps) ↔ r = goAtoi p ∧ Misread rs ps := by
          constructor
          · rintro (⟨-, hr', h⟩ | ⟨hp', -, -⟩ | ⟨hp', -, -, -⟩)
            · exact ⟨hr', h⟩
            · exact absurd hp' hp
            · exact absurd hp' hp
          · rintro ⟨hr', h⟩
            exact .later hp hr' h
        rw [hmis]
        by_cases hr' : r = goAtoi p
        · have hnot : ¬ goAtoi p < r := by omega
          simp only [hr', true_and]
          rw [← ih]
          simp
        · simp [hr']

/-! ## Served versions -/

section served
variable {v major minor patch rest : List Char}

theorem digitRun_eq_some {s digits rest : List Char} (h : digitRun s = some (digits, rest)) :
    s = digits ++ rest ∧ digits.all (isDigit 10) = true ∧ 1 ≤ digits.length ∧ digits.length ≤ 9 ∧
      ∀ c ∈ rest.head?, isDigit 10 c = false := by
  unfold digitRun at h
  dsimp only at h
  split at h
  · rename_i hlen
    obtain ⟨rfl, rfl⟩ := Prod.mk.inj (Option.some.inj h)
    refine ⟨List.takeWhile_append_dropWhile.symm, ?_, hlen.1, hlen.2, fun c hc => ?_⟩
    · exact List.all_eq_true.mpr fun c hc => List.mem_takeWhile_imp hc
    · have hhead := List.head?_dropWhile_not (isDigit 10) s
      rw [Option.mem_def.mp hc] at hhead
      simpa using hhead
  · contradiction

theorem dotted_eq_some {s s' : List Char} (h : dotted s = some s') : s = '.' :: s' := by
  unfold dotted at h
  split at h
  · rw [Option.some.inj h]
  · contradiction

theorem versionShape_eq_some (h : versionShape v = some (major, minor, patch, rest)) :
    trimV v = major ++ '.' :: (minor ++ '.' :: (patch ++ rest)) ∧
      (∀ d ∈ [major, minor, patch], d.all (isDigit 10) = true ∧ 1 ≤ d.length ∧ d.length ≤ 9) ∧
      ∀ c ∈ rest.head?, isDigit 10 c = false := by
  obtain ⟨⟨ma, s⟩, hma, h⟩ := Option.bind_eq_some_iff.mp h
  obtain ⟨⟨mi, t⟩, hmi, h⟩ := Option.bind_eq_some_iff.mp h
  obtain ⟨⟨pa, u⟩, hpa, h⟩ := Option.map_eq_some_iff.mp h
  obtain ⟨s', hs', hmi⟩ := Option.bind_eq_some_iff.mp hmi
  obtain ⟨t', ht', hpa⟩ := Option.bind_eq_some_iff.mp hpa
  simp only [Prod.mk.injEq] at h
  obtain ⟨rfl, rfl, rfl, rfl⟩ := h
  obtain ⟨hv, hma, hma1, hma9, -⟩ := digitRun_eq_some hma
  obtain ⟨hs, hmi, hmi1, hmi9, -⟩ := digitRun_eq_some hmi
  obtain ⟨ht, hpa, hpa1, hpa9, hrest⟩ := digitRun_eq_some hpa
  refine ⟨?_, ?_, hrest⟩
  · rw [hv, dotted_eq_some hs', hs, dotted_eq_some ht', ht]
  · intro d hd
    simp only [List.mem_cons, List.not_mem_nil, or_false] at hd
    rcases hd with rfl | rfl | rfl
    · exact ⟨hma, hma1, hma9⟩
    · exact ⟨hmi, hmi1, hmi9⟩
    · exact ⟨hpa, hpa1, hpa9⟩

theorem dot_not_mem_digits {d : List Char} (h : d.all (isDigit 10) = true) : '.' ∉ d := by
  intro hmem
  have hdot := List.all_eq_true.mp h '.' hmem
  exact absurd hdot (by decide)

theorem versionParts_of_shape (h : versionShape v = some (major, minor, patch, rest)) :
    versionParts v = [major, minor, patch ++ rest] := by
  obtain ⟨htrim, hdigits, -⟩ := versionShape_eq_some h
  have hcut : ∀ d s : List Char, '.' ∉ d → cutDot (d ++ '.' :: s) = some (d, s) := by
    intro d s hd
    have hall : ∀ c ∈ d, decide (c ≠ '.') = true := fun c hc => decide_eq_true fun heq => hd (heq ▸ hc)
    have hdrop : (d ++ '.' :: s).dropWhile (· ≠ '.') = '.' :: s := by
      rw [List.dropWhile_append_of_pos hall]
      rfl
    have htake : (d ++ '.' :: s).takeWhile (· ≠ '.') = d := by
      rw [List.takeWhile_append_of_pos hall]
      exact List.append_nil d
    unfold cutDot
    rw [hdrop, htake]
  have hmajor := dot_not_mem_digits (hdigits major (by simp)).1
  have hminor := dot_not_mem_digits (hdigits minor (by simp)).1
  rw [versionParts, splitN3, htrim, hcut _ _ hmajor, Option.bind_some]
  dsimp only
  rw [hcut _ _ hminor, Option.map_some]

theorem number_of_digits {d : List Char} (h : d.all (isDigit 10) = true) (hne : 1 ≤ d.length)
    (hlen : d.length ≤ 9) :
    goAtoi d = (ofDigits 10 d : Int) ∧ atoiValue d = (ofDigits 10 d : Int) ∧ ofDigits 10 d < 10 ^ 9 := by
  have hlt : ofDigits 10 d < 10 ^ 9 := ofDigits_lt (by omega) d hlen (List.all_eq_true.mp h)
  have hnil : d ≠ [] := List.ne_nil_of_length_pos hne
  refine ⟨?_, ?_, hlt⟩
  · rw [goAtoi_eq, signed_digits h]
    dsimp only
    rw [if_pos ⟨hnil, h⟩, if_neg Bool.false_ne_true, toDouble_of_lt (by omega)]
  · apply atoiValue_of_atoi
    rw [atoi, signed_digits h]
    dsimp only
    rw [if_pos ⟨hnil, h⟩, int64, if_neg Bool.false_ne_true]
    exact if_pos (by omega)

theorem goAtoi_suffixed (hpatch : patch.all (isDigit 10) = true) (hne : 1 ≤ patch.length)
    (hrest : ∀ c ∈ rest.head?, isDigit 10 c = false) (hsuffix : rest ≠ []) : goAtoi (patch ++ rest) = 0 := by
  obtain ⟨c, cs, rfl⟩ := List.exists_cons_of_ne_nil hsuffix
  have hc : isDigit 10 c = false := hrest c rfl
  have hall : (signed (patch ++ c :: cs)).2.all (isDigit 10) = false := by
    have hsigned : (signed (patch ++ c :: cs)).2 = patch ++ c :: cs := by
      obtain ⟨d, ds, rfl⟩ := List.exists_cons_of_ne_nil (List.ne_nil_of_length_pos hne)
      have hd : isDigit 10 d = true := List.all_eq_true.mp hpatch d List.mem_cons_self
      rw [List.cons_append]
      unfold signed
      split
      · rename_i heq
        rw [(List.cons.inj heq).1] at hd
        exact absurd hd (by decide)
      · rename_i heq
        rw [(List.cons.inj heq).1] at hd
        exact absurd hd (by decide)
      · rfl
    rw [hsigned, List.all_append, List.all_cons, hc, Bool.false_and, Bool.and_false]
  rw [goAtoi_eq, if_neg]
  rintro ⟨-, hall'⟩
  exact absurd (hall'.symm.trans hall) Bool.false_ne_true.symm

theorem served_numbers (h : versionShape v = some (major, minor, patch, rest)) :
    (∀ r ∈ serverNumbers v, 0 ≤ r ∧ r < 10 ^ 9) ∧ (rest = [] → agentNumbers v = serverNumbers v) := by
  obtain ⟨-, hdigits, hrest⟩ := versionShape_eq_some h
  obtain ⟨hma, hma1, hma9⟩ := hdigits major (by simp)
  obtain ⟨hmi, hmi1, hmi9⟩ := hdigits minor (by simp)
  obtain ⟨hpa, hpa1, hpa9⟩ := hdigits patch (by simp)
  obtain ⟨hma, hma', hmalt⟩ := number_of_digits hma hma1 hma9
  obtain ⟨hmi, hmi', hmilt⟩ := number_of_digits hmi hmi1 hmi9
  obtain ⟨hpanum, hpanum', hpalt⟩ := number_of_digits hpa hpa1 hpa9
  rw [serverNumbers, agentNumbers, versionParts_of_shape h]
  simp only [List.map_cons, List.map_nil]
  refine ⟨fun r hr => ?_, fun hnil => ?_⟩
  · simp only [List.mem_cons, List.not_mem_nil, or_false] at hr
    rcases hr with rfl | rfl | rfl
    · rw [hma]
      omega
    · rw [hmi]
      omega
    · by_cases hnil : rest = []
      · rw [hnil, List.append_nil, hpanum]
        omega
      · rw [goAtoi_suffixed hpa hpa1 hrest hnil]
        omega
  · rw [hnil, List.append_nil, hma, hma', hmi, hmi', hpanum, hpanum']

theorem exists_shape (hv : isValidServedAgentVersion v = true) :
    ∃ major minor patch rest, versionShape v = some (major, minor, patch, rest) := by
  rw [isValidServedAgentVersion, Bool.and_eq_true, Option.any_eq_true] at hv
  obtain ⟨-, ⟨major, minor, patch, rest⟩, hshape, -⟩ := hv
  exact ⟨major, minor, patch, rest, hshape⟩

end served

/-- An agent at rest starts the update to a served version exactly where the server finds the version newer,
provided that the version has no suffix and the reported one is not misread; one with a suffix is never
started, so the server must not find it newer. -/
theorem served_agrees_iff (v c : List Char) (hv : isValidServedAgentVersion v = true) :
    (isStrictlyNewerAgentVersion v c = true ↔ (startUpdateIfNewer c false v).1 = true) ↔
      if updateVersionRe v = true then ¬ Misread (serverNumbers v) (versionParts c)
      else ¬ Above (serverNumbers v) (serverNumbers c) := by
  obtain ⟨major, minor, patch, rest, hshape⟩ := exists_shape hv
  obtain ⟨hsmall, hplain⟩ := served_numbers hshape
  rw [isStrictlyNewerAgentVersion_iff]
  by_cases hre : updateVersionRe v = true
  · have hnil : rest = [] := by
      rw [updateVersionRe, hshape] at hre
      simpa using hre
    have hstart : (startUpdateIfNewer c false v).1 = true ↔ Above (serverNumbers v) (agentNumbers c) := by
      rw [← hplain hnil, ← isStrictlyNewer_iff, startUpdateIfNewer, hre]
      cases isStrictlyNewer v c <;> simp
    rw [if_pos hre, hstart]
    exact above_agrees_iff hsmall
  · have hstart : ¬ (startUpdateIfNewer c false v).1 = true := by
      rw [startUpdateIfNewer, Bool.eq_false_of_not_eq_true hre]
      exact Bool.false_ne_true
    rw [if_neg hre, iff_false_right hstart]

theorem served_agrees_patch :
    (isStrictlyNewerAgentVersion "1.2.3".toList "v1.2.2-dev".toList = true ↔
        (startUpdateIfNewer "v1.2.2-dev".toList false "1.2.3".toList).1 = true) ↔
      if updateVersionRe "1.2.3".toList = true then
        ¬ Misread (serverNumbers "1.2.3".toList) (versionParts "v1.2.2-dev".toList)
      else ¬ Above (serverNumbers "1.2.3".toList) (serverNumbers "v1.2.2-dev".toList) :=
  served_agrees_iff _ _ (by decide +kernel)

/-- A release candidate is offered, and no agent takes it. -/
theorem suffix_never_started :
    isValidServedAgentVersion "1.2.3-rc1".toList = true ∧
      ¬ (isStrictlyNewerAgentVersion "1.2.3-rc1".toList "1.1.9".toList = true ↔
        (startUpdateIfNewer "1.1.9".toList false "1.2.3-rc1".toList).1 = true) := by
  decide +kernel

end Obliguard.Server

import Obliguard.Agent.WindowsFirewall

/-!
# The desired groups

Every entry of the list is in one rule of each direction (`exists_desired`), a rule lists entries of the
list only (`mem_of_mem_desired`), and no two rules share a name (`nodup_desired`).
-/

namespace Obliguard.Agent

open Numeral

section suffixes
variable {chunks i j : Nat}

theorem groupSuffix_injective (hi : i < chunks) (hj : j < chunks)
    (h : groupSuffix chunks i = groupSuffix chunks j) : i = j := by
  unfold groupSuffix at h
  by_cases hmany : chunks > 1
  · rw [if_pos hmany, if_pos hmany] at h
    have hij := toDigits_injective (List.cons.inj h).2
    omega
  · omega

theorem append_groupSuffix (base : List Char) (h : chunks > 1) :
    base ++ groupSuffix chunks i = numbered base (i + 1) := by
  rw [groupSuffix, if_pos h, numbered]

end suffixes

section groups
variable {ips : List String} {r : GroupedRule}

theorem mem_desired : r ∈ desiredGroupedRules ips ↔
    ∃ i chunk, (slices maxIPsPerRule ips)[i]? = some chunk ∧
      r ∈ groupedRules (groupSuffix (slices maxIPsPerRule ips).length i) chunk := by
  simp only [desiredGroupedRules, List.mem_flatMap, Prod.exists, List.mem_zipIdx_iff_getElem?]
  exact exists_comm

theorem desired_cases (h : r ∈ desiredGroupedRules ips) :
    ∃ i < (slices maxIPsPerRule ips).length, r.dir = dirOf r.name ∧
      (r.name = winRuleIn ++ groupSuffix (slices maxIPsPerRule ips).length i ∨
        r.name = winRuleOut ++ groupSuffix (slices maxIPsPerRule ips).length i) := by
  obtain ⟨i, chunk, hchunk, hr⟩ := mem_desired.mp h
  refine ⟨i, (List.getElem?_eq_some_iff.mp hchunk).1, ?_⟩
  simp only [groupedRules, List.mem_cons, List.not_mem_nil, or_false] at hr
  rcases hr with rfl | rfl
  · exact ⟨(dirOf_append_in _).symm, .inl rfl⟩
  · exact ⟨(dirOf_append_out _).symm, .inr rfl⟩

theorem dir_of_mem_desired (h : r ∈ desiredGroupedRules ips) : r.dir = dirOf r.name :=
  (desired_cases h).choose_spec.2.1

theorem mem_of_mem_desired (h : r ∈ desiredGroupedRules ips) : ∀ ip ∈ r.entries, ip ∈ ips := by
  obtain ⟨i, chunk, hchunk, hr⟩ := mem_desired.mp h
  have hentries : r.entries = chunk := by
    simp only [groupedRules, List.mem_cons, List.not_mem_nil, or_false] at hr
    rcases hr with rfl | rfl <;> rfl
  intro ip hip
  rw [hentries] at hip
  exact (mem_slices (by decide)).mp ⟨chunk, List.mem_of_getElem? hchunk, hip⟩

theorem entries_ne_nil (h : r ∈ desiredGroupedRules ips) : r.entries ≠ [] := by
  obtain ⟨i, chunk, hchunk, hr⟩ := mem_desired.mp h
  have hentries : r.entries = chunk := by
    simp only [groupedRules, List.mem_cons, List.not_mem_nil, or_false] at hr
    rcases hr with rfl | rfl <;> rfl
  rw [hentries]
  exact ne_nil_of_mem_slices (by decide) (List.mem_of_getElem? hchunk)

/-- Both rules of the group of an entry. -/
theorem exists_desired {ip : String} (h : ip ∈ ips) (dir : Direction) :
    ∃ r ∈ desiredGroupedRules ips, r.dir = dir ∧ ip ∈ r.entries := by
  obtain ⟨chunk, hchunk, hip⟩ := (mem_slices (n := maxIPsPerRule) (by decide)).mpr h
  obtain ⟨i, hi⟩ := List.mem_iff_getElem?.mp hchunk
  cases dir with
  | «in» => exact ⟨_, mem_desired.mpr ⟨i, chunk, hi, List.mem_cons_self⟩, rfl, hip⟩
  | out => exact ⟨_, mem_desired.mpr ⟨i, chunk, hi, List.mem_cons_of_mem _ List.mem_cons_self⟩, rfl, hip⟩

theorem nodup_desired (ips : List String) : ((desiredGroupedRules ips).map (·.name)).Nodup := by
  rw [desiredGroupedRules, List.map_flatMap, List.nodup_flatMap]
  refine ⟨fun p _ => ?_, ?_⟩
  · have hne := append_in_ne_append_out (groupSuffix (slices maxIPsPerRule ips).length p.2)
      (groupSuffix (slices maxIPsPerRule ips).length p.2)
    simpa [groupedRules] using hne
  · have hnodup : (slices maxIPsPerRule ips).zipIdx.Nodup := by
      refine List.Nodup.of_map Prod.snd ?_
      rw [List.zipIdx_map_snd]
      exact List.nodup_range'
    refine hnodup.pairwise_of_forall_ne fun p hp q hq hpq => ?_
    have hp' := List.mem_zipIdx_iff_getElem?.mp hp
    have hq' := List.mem_zipIdx_iff_getElem?.mp hq
    have hi : p.2 ≠ q.2 := by
      intro heq
      rw [heq, hq'] at hp'
      exact hpq (Prod.ext (Option.some.inj hp').symm heq)
    have hsuffix : groupSuffix (slices maxIPsPerRule ips).length p.2 ≠
        groupSuffix (slices maxIPsPerRule ips).length q.2 := fun h =>
      hi (groupSuffix_injective (List.getElem?_eq_some_iff.mp hp').1
        (List.getElem?_eq_some_iff.mp hq').1 h)
    intro name hmemp hmemq
    simp only [groupedRules, List.map_cons, List.map_nil, List.mem_cons, List.not_mem_nil,
      or_false] at hmemp hmemq
    rcases hmemp with rfl | rfl
    · rcases hmemq with h | h
      · exact hsuffix (List.append_cancel_left h)
      · exact append_in_ne_append_out _ _ h
    · rcases hmemq with h | h
      · exact append_in_ne_append_out _ _ h.symm
      · exact hsuffix (List.append_cancel_left h)

theorem length_desired (ips : List String) :
    (desiredGroupedRules ips).length = 2 * (slices maxIPsPerRule ips).length := by
  rw [desiredGroupedRules, List.length_flatMap]
  simp only [groupedRules, List.length_cons, List.length_nil]
  rw [List.map_const', List.sum_replicate_nat, List.length_zipIdx, Nat.mul_comm]

theorem base_not_mem (h : (slices maxIPsPerRule ips).length ≠ 1) :
    winRuleIn ∉ (desiredGroupedRules ips).map (·.name) ∧
      winRuleOut ∉ (desiredGroupedRules ips).map (·.name) := by
  have hname : ∀ r ∈ desiredGroupedRules ips, r.name ≠ winRuleIn ∧ r.name ≠ winRuleOut := by
    intro r hr
    obtain ⟨i, hi, -, hname⟩ := desired_cases hr
    have hmany : (slices maxIPsPerRule ips).length > 1 := by omega
    rw [append_groupSuffix _ hmany, append_groupSuffix _ hmany] at hname
    rcases hname with hname | hname
    · rw [hname]
      refine ⟨numbered_ne _ _, fun h => ?_⟩
      have hdir := congrArg dirOf h
      rw [numbered, dirOf_append_in] at hdir
      contradiction
    · rw [hname]
      refine ⟨fun h => ?_, numbered_ne _ _⟩
      have hdir := congrArg dirOf h
      rw [numbered, dirOf_append_out] at hdir
      contradiction
  constructor
  · intro hmem
    obtain ⟨r, hr, heq⟩ := List.mem_map.mp hmem
    exact (hname r hr).1 heq
  · intro hmem
    obtain ⟨r, hr, heq⟩ := List.mem_map.mp hmem
    exact (hname r hr).2 heq

theorem numbered_not_mem {i : Nat}
    (h : (slices maxIPsPerRule ips).length > 1 → (slices maxIPsPerRule ips).length < i) :
    numbered winRuleIn i ∉ (desiredGroupedRules ips).map (·.name) ∧
      numbered winRuleOut i ∉ (desiredGroupedRules ips).map (·.name) := by
  have hname : ∀ r ∈ desiredGroupedRules ips,
      r.name ≠ numbered winRuleIn i ∧ r.name ≠ numbered winRuleOut i := by
    intro r hr
    obtain ⟨k, hk, -, hname⟩ := desired_cases hr
    have hsuffix : groupSuffix (slices maxIPsPerRule ips).length k ≠ '-' :: Nat.toDigits 10 i := by
      intro heq
      unfold groupSuffix at heq
      split at heq
      · rename_i hmany
        have hki := toDigits_injective (List.cons.inj heq).2
        have hlt := h hmany
        omega
      · contradiction
    rcases hname with hname | hname
    · rw [hname]
      exact ⟨fun heq => hsuffix (List.append_cancel_left heq), append_in_ne_append_out _ _⟩
    · rw [hname]
      exact ⟨fun heq => append_in_ne_append_out _ _ heq.symm,
        fun heq => hsuffix (List.append_cancel_left heq)⟩
  constructor
  · intro hmem
    obtain ⟨r, hr, heq⟩ := List.mem_map.mp hmem
    exact (hname r hr).1 heq
  · intro hmem
    obtain ⟨r, hr, heq⟩ := List.mem_map.mp hmem
    exact (hname r hr).2 heq

theorem mem_of_isDesiredGroupName {name : List Char}
    (h : isDesiredGroupName name (slices maxIPsPerRule ips).length = true) :
    name ∈ (desiredGroupedRules ips).map (·.name) := by
  have hgroup : ∀ i < (slices maxIPsPerRule ips).length,
      winRuleIn ++ groupSuffix (slices maxIPsPerRule ips).length i ∈ (desiredGroupedRules ips).map (·.name) ∧
        winRuleOut ++ groupSuffix (slices maxIPsPerRule ips).length i ∈
          (desiredGroupedRules ips).map (·.name) := by
    intro i hi
    have hchunk := List.getElem?_eq_getElem hi
    constructor
    · exact List.mem_map.mpr ⟨_, mem_desired.mpr ⟨i, _, hchunk, List.mem_cons_self⟩, rfl⟩
    · exact List.mem_map.mpr ⟨_, mem_desired.mpr ⟨i, _, hchunk,
        List.mem_cons_of_mem _ List.mem_cons_self⟩, rfl⟩
  unfold isDesiredGroupName at h
  split at h
  · rename_i hone
    obtain ⟨hin, hout⟩ := hgroup 0 (by omega)
    rw [hone, groupSuffix, if_neg (by omega), List.append_nil] at hin
    rw [hone, groupSuffix, if_neg (by omega), List.append_nil] at hout
    simp only [Bool.or_eq_true, decide_eq_true_eq] at h
    rcases h with rfl | rfl
    · exact hin
    · exact hout
  · rename_i hne
    simp only [List.any_eq_true, List.mem_range, Bool.or_eq_true, decide_eq_true_eq] at h
    obtain ⟨i, hi, hname⟩ := h
    have hmany : (slices maxIPsPerRule ips).length > 1 := by omega
    obtain ⟨hin, hout⟩ := hgroup i hi
    rw [append_groupSuffix _ hmany] at hin hout
    rcases hname with rfl | rfl
    · exact hin
    · exact hout

theorem splitOn_ipList (h : r ∈ desiredGroupedRules ips) (hips : ∀ ip ∈ ips, ',' ∉ ip.toList) :
    r.ipList.splitOn ',' = r.entries.map String.toList := by
  have hlist : r.ipList = [','].intercalate (r.entries.map String.toList) := by
    obtain ⟨i, chunk, -, hr⟩ := mem_desired.mp h
    simp only [groupedRules, List.mem_cons, List.not_mem_nil, or_false] at hr
    rcases hr with rfl | rfl <;> rfl
  rw [hlist]
  refine List.splitOn_intercalate ',' ?_ (by simpa using entries_ne_nil h)
  intro l hl
  obtain ⟨ip, hip, rfl⟩ := List.mem_map.mp hl
  exact hips ip (mem_of_mem_desired h ip hip)

end groups

/-! ## The names in the output of `show rule` -/

/-- Each grouped rule has its name on a line of the output, after a label in some language. -/
def ShowsNames (output : List Rule → List Char) : Prop :=
  ∀ rules : List Rule, ∀ r ∈ rules, isGroupedRuleName r.name = true → ∃ label blanks eol,
    ¬ winRulePrefix <:+: label ∧ (∀ c ∈ blanks, c = ' ' ∨ c = '\t') ∧ (∀ c ∈ eol, c = ' ' ∨ c = '\r') ∧
      label ++ ':' :: (blanks ++ r.name ++ eol) ∈ (output rules).splitOn '\n'

section parse
variable {name label blanks eol : List Char}

theorem grouped_cases (h : isGroupedRuleName name = true) :
    ∃ base ∈ [winRuleIn, winRuleOut], ∃ tail, name = base ++ tail ∧
      ∀ c ∈ tail, c = '-' ∨ c ∈ "0123456789".toList := by
  obtain ⟨base, hbase, hname⟩ := List.any_eq_true.mp h
  refine ⟨base, hbase, ?_⟩
  simp only [Bool.or_eq_true, decide_eq_true_eq, Bool.and_eq_true, List.all_eq_true] at hname
  rcases hname with rfl | ⟨⟨hne, -⟩, hdigits⟩
  · exact ⟨[], (List.append_nil name).symm, nofun⟩
  · unfold trimPrefix at hne hdigits
    split at hne
    · rename_i hstart
      rw [if_pos hstart] at hdigits
      obtain ⟨digits, rfl⟩ := List.isPrefixOf_iff_prefix.mp hstart
      rw [List.drop_left] at hdigits
      refine ⟨'-' :: digits, by rw [List.append_assoc, List.singleton_append], fun c hc => ?_⟩
      exact (List.mem_cons.mp hc).imp_right (hdigits c)
    · exact absurd rfl hne

theorem grouped_chars (h : isGroupedRuleName name = true) :
    name ≠ [] ∧ ∀ c ∈ name, c ≠ ' ' ∧ c ≠ '\t' ∧ c ≠ '\r' ∧ c ≠ ',' ∧ c ≠ ';' ∧ c ≠ '\n' := by
  obtain ⟨base, hbase, tail, rfl, htail⟩ := grouped_cases h
  have hchars : ∀ b ∈ [winRuleIn, winRuleOut],
      b ≠ [] ∧ ∀ c ∈ b, c ≠ ' ' ∧ c ≠ '\t' ∧ c ≠ '\r' ∧ c ≠ ',' ∧ c ≠ ';' ∧ c ≠ '\n' := by
    have hall : ([winRuleIn, winRuleOut].all fun b => !b.isEmpty && b.all fun c =>
        c != ' ' && c != '\t' && c != '\r' && c != ',' && c != ';' && c != '\n') = true := by
      decide +kernel
    simpa [and_assoc] using hall
  have hdigits : ∀ c ∈ "0123456789".toList, c ≠ ' ' ∧ c ≠ '\t' ∧ c ≠ '\r' ∧ c ≠ ',' ∧ c ≠ ';' ∧ c ≠ '\n' := by
    simp
  obtain ⟨hne, hbase'⟩ := hchars base hbase
  refine ⟨fun hnil => hne (List.append_eq_nil_iff.mp hnil).1, fun c hc => ?_⟩
  rcases List.mem_append.mp hc with hc | hc
  · exact hbase' c hc
  · rcases htail c hc with rfl | hc
    · decide
    · exact hdigits c hc

theorem prefix_of_grouped (h : isGroupedRuleName name = true) : winRulePrefix <+: name := by
  obtain ⟨base, hbase, tail, rfl, -⟩ := grouped_cases h
  have hstart : ∀ b ∈ [winRuleIn, winRuleOut], winRulePrefix <+: b := by decide
  exact (hstart base hbase).trans (List.prefix_append base tail)

theorem trimRight_append {cut s t : List Char} (ht : ∀ c ∈ t, c ∈ cut) (hs : ∀ c ∈ s.getLast?, c ∉ cut) :
    trimRight cut (s ++ t) = s := by
  have hdrop : (s ++ t).reverse.dropWhile (fun c => decide (c ∈ cut)) = s.reverse := by
    rw [List.reverse_append, List.dropWhile_append_of_pos fun c hc => ?_]
    · cases hlast : s.reverse with
      | nil => rfl
      | cons c rest =>
        have hc : c ∉ cut := hs c (by rw [← List.head?_reverse, hlast]; rfl)
        rw [List.dropWhile_cons_of_neg (by simpa using hc)]
    · exact decide_eq_true (ht c (List.mem_reverse.mp hc))
  rw [trimRight, hdrop, List.reverse_reverse]

theorem prefix_of_prefix_append_cons {p s t : List Char} {c : Char} (hc : c ∉ p) (h : p <+: s ++ c :: t) :
    p <+: s := by
  obtain ⟨u, hu⟩ := h
  rcases List.append_eq_append_iff.mp hu with ⟨v, rfl, -⟩ | ⟨v, rfl, hv⟩
  · exact List.prefix_append p v
  · cases v with
    | nil => exact ⟨[], by rw [List.append_nil, List.append_nil]⟩
    | cons d v =>
      obtain ⟨rfl, -⟩ := List.cons.inj hv
      exact absurd (List.mem_append_right s List.mem_cons_self) hc

theorem cutIndex_append {sub before rest : List Char} (hsub : sub <+: rest) (hrest : rest ≠ [])
    (h : ∀ s, s <:+ before → s ≠ [] → ¬ sub <+: s ++ rest) :
    cutIndex sub (before ++ rest) = some (before, rest) := by
  induction before with
  | nil =>
    obtain ⟨c, s, rfl⟩ := List.exists_cons_of_ne_nil hrest
    rw [List.nil_append, cutIndex, if_pos (List.isPrefixOf_iff_prefix.mpr hsub)]
  | cons c before ih =>
    have hnot : ¬ sub.isPrefixOf (c :: (before ++ rest)) = true := fun hp =>
      h (c :: before) (List.suffix_refl _) nofun (List.isPrefixOf_iff_prefix.mp hp)
    rw [List.cons_append, cutIndex, if_neg hnot,
      ih fun s hs => h s (hs.trans (List.suffix_cons c before)), Option.map_some]

theorem ruleNameOf_line (hname : isGroupedRuleName name = true) (hlabel : ¬ winRulePrefix <:+: label)
    (hblanks : ∀ c ∈ blanks, c = ' ' ∨ c = '\t') (heol : ∀ c ∈ eol, c = ' ' ∨ c = '\r') :
    ruleNameOf (label ++ ':' :: (blanks ++ name ++ eol)) = some name := by
  obtain ⟨hne, hchars⟩ := grouped_chars hname
  have hline : label ++ ':' :: (blanks ++ name ++ eol) = ((label ++ ':' :: blanks) ++ name) ++ eol := by
    simp
  have htrim : trimRight [' ', '\r', '\t'] (((label ++ ':' :: blanks) ++ name) ++ eol) =
      (label ++ ':' :: blanks) ++ name := by
    refine trimRight_append (fun c hc => ?_) fun c hc => ?_
    · rcases heol c hc with rfl | rfl <;> decide
    · rw [List.getLast?_append_of_ne_nil _ hne] at hc
      have hmem := hchars c (List.mem_of_getLast? hc)
      simp only [List.mem_cons, List.not_mem_nil, or_false, not_or]
      exact ⟨hmem.1, hmem.2.2.1, hmem.2.1⟩
  have hcut : cutIndex winRulePrefix ((label ++ ':' :: blanks) ++ name) =
      some (label ++ ':' :: blanks, name) := by
    refine cutIndex_append (prefix_of_grouped hname) hne fun s hs hs' hp => ?_
    have hcolon : (':' :: blanks) <:+ label ++ ':' :: blanks := List.suffix_append label _
    rcases List.suffix_or_suffix_of_suffix hs hcolon with hs | ⟨t, rfl⟩
    · -- a blank, or the colon, before the name
      obtain ⟨c, s, rfl⟩ := List.exists_cons_of_ne_nil hs'
      have hc : c = 'O' := (List.cons_prefix_cons.mp hp).1.symm
      rcases List.mem_cons.mp (hs.mem List.mem_cons_self) with h | h
      · rw [hc] at h
        contradiction
      · rcases hblanks c h with h | h <;> rw [hc] at h <;> contradiction
    · -- an occurrence that starts in the label ends there
      obtain ⟨u, hu⟩ := hs
      rw [← List.append_assoc] at hu
      have hlabel' : u ++ t = label := List.append_cancel_right hu
      rw [List.append_assoc, List.cons_append] at hp
      have hstart := prefix_of_prefix_append_cons (by decide) hp
      exact hlabel (hstart.isInfix.trans (hlabel' ▸ (List.suffix_append u t).isInfix))
  have hlast : trimRight [' ', '\t'] (label ++ ':' :: blanks) = label ++ [':'] := by
    rw [show label ++ ':' :: blanks = (label ++ [':']) ++ blanks by simp]
    refine trimRight_append (fun c hc => ?_) fun c hc => ?_
    · rcases hblanks c hc with rfl | rfl <;> decide
    · rw [List.getLast?_concat, Option.mem_some_iff] at hc
      rw [← hc]
      decide
  rw [hline, ruleNameOf, htrim, hcut, Option.bind_some]
  dsimp only
  rw [hlast, if_neg, if_neg]
  · rw [Bool.not_eq_true, List.any_eq_false]
    intro c hc
    have hmem := hchars c hc
    simp only [List.mem_cons, List.not_mem_nil, or_false, decide_eq_true_eq, not_or]
    exact ⟨hmem.1, hmem.2.1, hmem.2.2.2.1, hmem.2.2.2.2.1⟩
  · rw [List.getLast?_concat]
    exact fun h => h.2.1 rfl

theorem ShowsNames.mem_parse {output : List Rule → List Char} (h : ShowsNames output) (rules : List Rule) :
    ∀ r ∈ rules, isGroupedRuleName r.name = true → r.name ∈ parseNetshRuleNames (output rules) := by
  intro r hr hname
  obtain ⟨label, blanks, eol, hlabel, hblanks, heol, hline⟩ := h rules r hr hname
  exact mem_distinct.mpr (List.mem_filterMap.mpr ⟨_, hline, ruleNameOf_line hname hlabel hblanks heol⟩)

end parse

end Obliguard.Agent

import Obliguard.Agent.NetshEnforcement

/-!
# Removing the grouped rules

`deleteGroupedRules` of `agent/firewall_netsh.go`, which a switch to WFP and the uninstaller run over the
rules that earlier processes left. It goes through the numbers from 1 and stops after eight in a row that
are absent. `deleteGroupedRules_clears` says exactly when nothing is left of the rules of a run:
no eight numbers in a row are absent below one that is there (`Walkable`).
`absent_groups_keep_rule` is a run that leaves such a gap.
-/

namespace Obliguard.Agent

open Text HighBits

/-- `deleteGroupedRules`: the base names, then the numbers 1 to 100000. -/
def deleteGroupedRules (env : NetshEnv) (n : Netsh) : Netsh :=
  deleteNumberedRulesFrom env 100000 1 0 (((n.delete env winRuleIn).1).delete env winRuleOut).1

/-- There is a rule of the number `i`. -/
def Netsh.Numbered (n : Netsh) (i : Nat) : Prop :=
  ∃ r ∈ n.rules, r.name = numbered winRuleIn i ∨ r.name = numbered winRuleOut i

/-- No number that is there has eight absent ones in a row below it, or is over 100000. -/
def Netsh.Walkable (n : Netsh) : Prop :=
  ∀ j ≥ 1, n.Numbered j → j ≤ 100000 ∧ ∀ k ≥ 1, k + 8 ≤ j → ∃ m, k ≤ m ∧ m < k + 8 ∧ n.Numbered m

/-! ## The walk -/

section walk
variable {env : NetshEnv} {n : Netsh} {name : List Char} {i j walk misses : Nat}

theorem rules_delete (hown : ∀ k, env.fails k = false) :
    (n.delete env name).1.rules = n.rules.filter (·.name ≠ name) := by
  unfold Netsh.delete
  split
  · rw [if_neg (by rw [hown]; exact Bool.false_ne_true)]
  · rename_i hnone
    symm
    apply List.filter_eq_self.mpr
    intro r hr
    exact decide_eq_true fun hname => hnone ⟨r, hr, hname⟩

theorem delete_hit (hown : ∀ k, env.fails k = false) :
    (n.delete env name).2 = true ↔ ∃ r ∈ n.rules, r.name = name := by
  unfold Netsh.delete
  split
  · rename_i hname
    rw [if_neg (by rw [hown]; exact Bool.false_ne_true)]
    exact iff_of_true rfl hname
  · rename_i hname
    exact iff_of_false Bool.false_ne_true hname

theorem numbered_in_ne_out (i j : Nat) : numbered winRuleIn i ≠ numbered winRuleOut j :=
  append_in_ne_append_out _ _

theorem numbered_deletes (hown : ∀ k, env.fails k = false) :
    (((n.delete env (numbered winRuleIn i)).1).delete env (numbered winRuleOut i)).1.Numbered j ↔
      j ≠ i ∧ n.Numbered j := by
  simp only [Netsh.Numbered, rules_delete hown, List.mem_filter, decide_eq_true_eq]
  constructor
  · rintro ⟨r, ⟨⟨hr, hin⟩, hout⟩, hname⟩
    refine ⟨?_, r, hr, hname⟩
    rintro rfl
    exact hname.elim hin hout
  · rintro ⟨hne, r, hr, hname⟩
    refine ⟨r, ⟨⟨hr, ?_⟩, ?_⟩, hname⟩
    · intro heq
      rcases hname with hname | hname
      · exact hne (numbered_injective (hname.symm.trans heq))
      · exact numbered_in_ne_out i j (heq.symm.trans hname)
    · intro heq
      rcases hname with hname | hname
      · exact numbered_in_ne_out j i (hname.symm.trans heq)
      · exact hne (numbered_injective (hname.symm.trans heq))

theorem numbered_hit (hown : ∀ k, env.fails k = false) :
    ((n.delete env (numbered winRuleIn i)).2 ||
      ((n.delete env (numbered winRuleIn i)).1.delete env (numbered winRuleOut i)).2) = true ↔
      n.Numbered i := by
  rw [Bool.or_eq_true, delete_hit hown, delete_hit hown, rules_delete hown]
  constructor
  · rintro (⟨r, hr, hname⟩ | ⟨r, hr, hname⟩)
    · exact ⟨r, hr, .inl hname⟩
    · exact ⟨r, (List.mem_filter.mp hr).1, .inr hname⟩
  · rintro ⟨r, hr, hname | hname⟩
    · exact .inl ⟨r, hr, hname⟩
    · refine .inr ⟨r, List.mem_filter.mpr ⟨hr, decide_eq_true ?_⟩, hname⟩
      rw [hname]
      exact (numbered_in_ne_out i i).symm

theorem mem_of_mem_walk (walk i misses : Nat) {r : Rule}
    (h : r ∈ (deleteNumberedRulesFrom env walk i misses n).rules) : r ∈ n.rules := by
  induction walk generalizing i misses n with
  | zero => exact h
  | succ walk ih =>
    rw [deleteNumberedRulesFrom] at h
    split at h
    · exact deleted_delete.mem r (deleted_delete.mem r (ih _ _ h))
    · exact h

/-- With `misses` absent numbers just below `i`, the walk gets to every number from `i` on. -/
def Reaches (n : Netsh) (i walk misses : Nat) : Prop :=
  ∀ j ≥ i, n.Numbered j → j < i + walk ∧ (∃ m, i ≤ m ∧ m + misses < i + 8 ∧ n.Numbered m) ∧
    ∀ k ≥ i, k + 8 ≤ j → ∃ m, k ≤ m ∧ m < k + 8 ∧ n.Numbered m

theorem reaches_hit {n' : Netsh} (hn' : ∀ j, n'.Numbered j ↔ j ≠ i ∧ n.Numbered j)
    (hi : n.Numbered i) (hmisses : misses < 8) :
    Reaches n' (i + 1) walk 0 ↔ Reaches n i (walk + 1) misses := by
  constructor
  · intro h j hj hnum
    refine ⟨?_, ⟨i, le_rfl, by omega, hi⟩, ?_⟩
    · by_cases hji : j = i
      · omega
      · have hlt := (h j (by omega) ((hn' j).mpr ⟨hji, hnum⟩)).1
        omega
    · intro k hk hkj
      by_cases hki : k = i
      · exact ⟨i, by omega, by omega, hi⟩
      · have hji : j ≠ i := by omega
        obtain ⟨m, hkm, hmk, hm⟩ := (h j (by omega) ((hn' j).mpr ⟨hji, hnum⟩)).2.2 k (by omega) hkj
        exact ⟨m, hkm, hmk, ((hn' m).mp hm).2⟩
  · intro h j hj hnum
    obtain ⟨hlt, -, hgaps⟩ := h j (by omega) ((hn' j).mp hnum).2
    have hwindow : ∀ k ≥ i + 1, k + 8 ≤ j → ∃ m, k ≤ m ∧ m < k + 8 ∧ n'.Numbered m := by
      intro k hk hkj
      obtain ⟨m, hkm, hmk, hm⟩ := hgaps k (by omega) hkj
      exact ⟨m, hkm, hmk, (hn' m).mpr ⟨by omega, hm⟩⟩
    refine ⟨by omega, ?_, hwindow⟩
    by_cases hnear : j < i + 1 + 8
    · exact ⟨j, hj, by omega, hnum⟩
    · obtain ⟨m, him, hmi, hm⟩ := hwindow (i + 1) le_rfl (by omega)
      exact ⟨m, him, by omega, hm⟩

theorem reaches_miss {n' : Netsh} (hn' : ∀ j, n'.Numbered j ↔ j ≠ i ∧ n.Numbered j)
    (hi : ¬ n.Numbered i) :
    Reaches n' (i + 1) walk (misses + 1) ↔ Reaches n i (walk + 1) misses := by
  have hsame : ∀ j, n'.Numbered j ↔ n.Numbered j := fun j =>
    (hn' j).trans (and_iff_right_of_imp fun hnum heq => hi (heq ▸ hnum))
  constructor
  · intro h j hj hnum
    have hji : j ≠ i := fun heq => hi (heq ▸ hnum)
    obtain ⟨hlt, ⟨m, him, hmi, hm⟩, hgaps⟩ := h j (by omega) ((hsame j).mpr hnum)
    refine ⟨by omega, ⟨m, by omega, by omega, (hsame m).mp hm⟩, fun k hk hkj => ?_⟩
    by_cases hki : k = i
    · exact ⟨m, by omega, by omega, (hsame m).mp hm⟩
    · obtain ⟨l, hkl, hlk, hl⟩ := hgaps k (by omega) hkj
      exact ⟨l, hkl, hlk, (hsame l).mp hl⟩
  · intro h j hj hnum
    obtain ⟨hlt, ⟨m, him, hmi, hm⟩, hgaps⟩ := h j (by omega) ((hsame j).mp hnum)
    have hmne : m ≠ i := fun heq => hi (heq ▸ hm)
    refine ⟨by omega, ⟨m, by omega, by omega, (hsame m).mpr hm⟩, fun k hk hkj => ?_⟩
    obtain ⟨l, hkl, hlk, hl⟩ := hgaps k (by omega) hkj
    exact ⟨l, hkl, hlk, (hsame l).mpr hl⟩

theorem walk_clears (hown : ∀ k, env.fails k = false) (n : Netsh) (walk i misses : Nat) :
    (∀ j ≥ i, ¬ (deleteNumberedRulesFrom env walk i misses n).Numbered j) ↔ Reaches n i walk misses := by
  induction walk generalizing n i misses with
  | zero =>
    constructor
    · intro h j hj hnum
      exact absurd hnum (h j hj)
    · intro h j hj hnum
      have hlt := (h j hj hnum).1
      omega
  | succ walk ih =>
    rw [deleteNumberedRulesFrom]
    split
    · rename_i hmisses
      dsimp only
      have hdel := fun j => @numbered_deletes env n i j hown
      have hhit := @numbered_hit env n i hown
      generalize (((n.delete env (numbered winRuleIn i)).1).delete env
        (numbered winRuleOut i)).1 = n' at hdel
      have hgone : ∀ w l m, ¬ (deleteNumberedRulesFrom env w l m n').Numbered i := by
        rintro w l m ⟨r, hr, hname⟩
        exact ((hdel i).mp ⟨r, mem_of_mem_walk w l m hr, hname⟩).1 rfl
      have hfrom : ∀ m, (∀ j ≥ i, ¬ (deleteNumberedRulesFrom env walk (i + 1) m n').Numbered j) ↔
          ∀ j ≥ i + 1, ¬ (deleteNumberedRulesFrom env walk (i + 1) m n').Numbered j := by
        intro m
        constructor
        · exact fun h j hj => h j (by omega)
        · intro h j hj
          rcases Nat.eq_or_lt_of_le hj with rfl | hlt
          · exact hgone walk _ m
          · exact h j hlt
      by_cases hi : n.Numbered i
      · rw [if_pos (hhit.mpr hi), hfrom, ih, reaches_hit hdel hi hmisses]
      · rw [if_neg (mt hhit.mp hi), hfrom, ih, reaches_miss hdel hi]
    · rename_i hmisses
      constructor
      · intro h j hj hnum
        exact absurd hnum (h j hj)
      · intro h j hj hnum
        obtain ⟨-, ⟨m, him, hmi, -⟩, -⟩ := h j hj hnum
        omega

end walk

/-! ## The names that are written -/

/-- The name of a group: a base name, or a base name with a number from 1 on. -/
def GroupName (name : List Char) : Prop :=
  (name = winRuleIn ∨ name = winRuleOut) ∨
    ∃ i ≥ 1, name = numbered winRuleIn i ∨ name = numbered winRuleOut i

/-- Every grouped rule has the name of a group. -/
def Netsh.Named (n : Netsh) : Prop :=
  ∀ r ∈ n.rules, isGroupedRuleName r.name = true → GroupName r.name

theorem mem_digits_of_isDigit {c : Char} (h : Numeral.isDigit 10 c = true) : c ∈ "0123456789".toList := by
  obtain ⟨d, hd, hlt⟩ := Numeral.isDigit_iff.mp h
  unfold Numeral.digitVal at hd
  have hc : 48 ≤ c.toNat ∧ c.toNat ≤ 57 := by
    split at hd
    · rename_i h09
      exact h09
    · split at hd
      · rename_i haf
        have hle : 97 ≤ c.toNat := haf.1
        injection hd
        omega
      · split at hd
        · rename_i hAF
          have hle : 65 ≤ c.toNat := hAF.1
          injection hd
          omega
        · contradiction
  obtain ⟨h0, h9⟩ := hc
  rw [← Char.ofNat_toNat c]
  interval_cases c.toNat <;> decide

theorem isGroupedRuleName_append {base s : List Char} (hbase : base = winRuleIn ∨ base = winRuleOut)
    (hne : s ≠ []) (hs : s.all (· ∈ "0123456789".toList)) : isGroupedRuleName (base ++ '-' :: s) = true := by
  have hpre : (base ++ ['-']).isPrefixOf (base ++ '-' :: s) = true := by
    rw [List.isPrefixOf_iff_prefix]
    exact ⟨s, by rw [List.append_assoc, List.singleton_append]⟩
  have htrim : trimPrefix (base ++ ['-']) (base ++ '-' :: s) = s := by
    rw [trimPrefix, if_pos hpre, List.length_append, List.length_singleton, ← List.drop_drop,
      List.drop_left, List.drop_one, List.tail_cons]
  have hshort : s ≠ base ++ '-' :: s := by
    intro h
    have hlen := congrArg List.length h
    rw [List.length_append, List.length_cons] at hlen
    omega
  rw [isGroupedRuleName, List.any_eq_true]
  refine ⟨base, by rcases hbase with rfl | rfl <;> simp, ?_⟩
  dsimp only
  rw [htrim, hs, decide_eq_true hshort, decide_eq_true hne]
  exact Bool.or_true _

theorem isGroupedRuleName_of_groupName {name : List Char} (h : GroupName name) :
    isGroupedRuleName name = true := by
  have hdigits : ∀ i, (Nat.toDigits 10 i).all (· ∈ "0123456789".toList) := by
    intro i
    rw [List.all_eq_true]
    intro c hc
    exact decide_eq_true (mem_digits_of_isDigit
      (Numeral.isDigit_of_mem_toDigits (by omega) (by omega) i c hc))
  have hne : ∀ i, Nat.toDigits 10 i ≠ [] := fun i => Nat.toDigits_ne_nil
  rcases h with (rfl | rfl) | ⟨i, -, rfl | rfl⟩
  · decide +kernel
  · decide +kernel
  · exact isGroupedRuleName_append (.inl rfl) (hne i) (hdigits i)
  · exact isGroupedRuleName_append (.inr rfl) (hne i) (hdigits i)

/-! ### The commands -/

section names
variable {env : NetshEnv} {n : Netsh} {name ipList : List Char} {dir : Direction} {P : List Char → Prop}

theorem names_delete (h : ∀ r ∈ n.rules, P r.name) : ∀ r ∈ (n.delete env name).1.rules, P r.name :=
  fun r hr => h r (deleted_delete.mem r hr)

theorem names_set (h : ∀ r ∈ n.rules, P r.name) : ∀ r ∈ (n.set env name dir ipList).1.rules, P r.name := by
  cases hset : (n.set env name dir ipList).2 with
  | false => rwa [(set_false hset).1]
  | true =>
    rw [(set_true hset).1]
    intro r hr
    obtain ⟨q, hq, rfl⟩ := List.mem_map.mp hr
    split
    · exact h q hq
    · exact h q hq

theorem names_netshRetry (h : ∀ r ∈ n.rules, P r.name) (hname : P name) :
    ∀ r ∈ (netshRetry env n name dir ipList).1.rules, P r.name := by
  rw [added_netshRetry.rules]
  split
  · intro r hr
    rcases List.mem_append.mp hr with hr | hr
    · exact h r hr
    · rw [List.mem_singleton.mp hr]
      exact hname
  · exact h

theorem names_applyGroupedRule {g : GroupedRule} {known : Bool} (h : ∀ r ∈ n.rules, P r.name)
    (hname : P g.name) : ∀ r ∈ (applyGroupedRule env n g known).1.rules, P r.name := by
  unfold applyGroupedRule
  cases known with
  | false => exact names_netshRetry (names_delete h) hname
  | true =>
    have hset := @names_set env n g.name g.ipList g.dir P h
    rw [if_pos rfl]
    generalize n.set env g.name g.dir g.ipList = out at hset
    obtain ⟨n', updated⟩ := out
    cases updated with
    | true => exact hset
    | false => exact names_netshRetry (names_delete hset) hname

theorem names_syncRules {f : WindowsFirewall} {ips : List String} (h : ∀ r ∈ f.netsh.rules, P r.name)
    (hP : ∀ g ∈ desiredGroupedRules ips, P g.name) :
    ∀ r ∈ (f.syncRules env ips).1.netsh.rules, P r.name := by
  have hgroups : ∀ gs : List GroupedRule, (∀ g ∈ gs, P g.name) → ∀ st : Sync,
      (∀ r ∈ st.netsh.rules, P r.name) → ∀ r ∈ (gs.foldl (syncGroup env) st).netsh.rules, P r.name := by
    intro gs
    induction gs with
    | nil => exact fun _ st hst => hst
    | cons g gs ih =>
      intro hgs st hst
      refine ih (fun q hq => hgs q (List.mem_cons_of_mem g hq)) _ ?_
      have happly := @names_applyGroupedRule env st.netsh P g (st.applied.lookup g.name).isSome hst
        (hgs g List.mem_cons_self)
      unfold syncGroup
      split
      · exact hst
      · dsimp only
        split
        · exact happly
        · exact happly
  have hdrops : ∀ want names : List (List Char), ∀ st : Sync, (∀ r ∈ st.netsh.rules, P r.name) →
      ∀ r ∈ (names.foldl (dropGroup env want) st).netsh.rules, P r.name := by
    intro want names
    induction names with
    | nil => exact fun st hst => hst
    | cons name names ih =>
      intro st hst
      apply ih
      unfold dropGroup
      split
      · exact hst
      · exact names_delete hst
  unfold WindowsFirewall.syncRules
  dsimp only
  split
  · exact names_delete (names_delete (hdrops _ _ _ (hgroups _ hP _ h)))
  · exact hdrops _ _ _ (hgroups _ hP _ h)

theorem mem_cleanupStaleRules {applied : AppliedRules} {groups : Nat} {r : Rule}
    (hr : r ∈ (cleanupStaleRules env applied groups n).1.rules) : r ∈ n.rules := by
  have hrules : ∀ (p : Rule → Bool), (n.show env p).1.rules = n.rules := fun p => rfl
  unfold cleanupStaleRules at hr
  split at hr
  · rename_i n' hshow
    have hn' : n'.rules = n.rules := by rw [← hrules, hshow]
    rw [← hn']
    replace hr := mem_of_mem_walk _ _ _ hr
    split at hr
    · exact deleted_delete.mem r (deleted_delete.mem r hr)
    · exact hr
  · rename_i n' out hshow
    have hn' : n'.rules = n.rules := by rw [← hrules, hshow]
    rw [← hn']
    exact mem_cleanupRules hr

theorem rules_loadCache (f : WindowsFirewall) : (f.loadCache env).netsh.rules = f.netsh.rules := by
  unfold WindowsFirewall.loadCache
  split
  · rfl
  · exact (getLegacyIPs_spec env f.netsh).1

theorem groupName_of_mem_desired {ips : List String} {g : GroupedRule} (h : g ∈ desiredGroupedRules ips) :
    GroupName g.name := by
  obtain ⟨i, hi, -, hname⟩ := desired_cases h
  by_cases hmany : (slices maxIPsPerRule ips).length > 1
  · rw [append_groupSuffix _ hmany, append_groupSuffix _ hmany] at hname
    exact .inr ⟨i + 1, by omega, hname⟩
  · rw [groupSuffix, if_neg hmany, List.append_nil, List.append_nil] at hname
    exact .inl hname

theorem named_flush {f : WindowsFirewall} (h : f.netsh.Named) : (f.flush env).1.netsh.Named := by
  have hload : (f.loadCache env).netsh.Named := by
    have hrules : (f.loadCache env).netsh.rules = f.netsh.rules := rules_loadCache f
    rw [Netsh.Named, hrules]
    exact h
  unfold WindowsFirewall.flush
  dsimp only
  generalize f.loadCache env = g at hload
  split
  · exact hload
  · have hsync := @names_syncRules env (fun name => isGroupedRuleName name = true → GroupName name)
      { g with dirty := false } (g.cache.insertionSort (· ≤ ·)) hload
      fun q hq _ => groupName_of_mem_desired hq
    generalize WindowsFirewall.syncRules env { g with dirty := false }
      (g.cache.insertionSort (· ≤ ·)) = out at hsync
    obtain ⟨g', err⟩ := out
    dsimp only at hsync ⊢
    unfold WindowsFirewall.firstCleanup
    split
    · exact hsync
    · exact fun r hr => hsync r (mem_cleanupStaleRules hr)

theorem named_call {f : WindowsFirewall} (h : f.netsh.Named) (c : WinCall) : (f.call env c).netsh.Named := by
  have hload : (f.loadCache env).netsh.Named := by
    rw [Netsh.Named, rules_loadCache f]
    exact h
  cases c with
  | ban ip =>
    show (f.banIP env ip).1.netsh.Named
    unfold WindowsFirewall.banIP
    dsimp only
    split
    · exact hload
    · split
      · dsimp only
        split
        · exact hload
        · exact hload
      · exact hload
  | unban ip =>
    show (f.unbanIP env ip).netsh.Named
    unfold WindowsFirewall.unbanIP
    dsimp only
    split
    · exact hload
    · exact hload
  | flush => exact named_flush h
  | report => exact hload

end names

/-! ## Runs -/

inductive NetshAction
  /-- A process starts, over the rules that are there. -/
  | start (env : NetshEnv) (banlist : Option (List Char))
  /-- The process calls its backend. -/
  | call (c : WinCall)

def netshStep (s : NetshEnv × WindowsFirewall) : NetshAction → NetshEnv × WindowsFirewall
  | .start env banlist => (env, .start s.2.netsh.rules banlist)
  | .call c => (s.1, s.2.call s.1 c)

/-- The rules after the actions, from the rules `rules`. -/
def netshRun (rules : List Rule) (env : NetshEnv) (banlist : Option (List Char)) (as : List NetshAction) :
    Netsh :=
  (as.foldl netshStep (env, .start rules banlist)).2.netsh

theorem named_netshRun {rules : List Rule} (hrules : ∀ r ∈ rules, isGroupedRuleName r.name = false)
    (env : NetshEnv) (banlist : Option (List Char)) (as : List NetshAction) :
    (netshRun rules env banlist as).Named := by
  have hrun : ∀ s : NetshEnv × WindowsFirewall, s.2.netsh.Named → (as.foldl netshStep s).2.netsh.Named := by
    induction as with
    | nil => exact fun s hs => hs
    | cons a as ih =>
      intro s hs
      apply ih
      cases a with
      | start env banlist => exact hs
      | call c => exact named_call hs c
  apply hrun
  intro r hr hgrouped
  exact absurd (hgrouped.symm.trans (hrules r hr)) Bool.false_ne_true.symm

theorem deleteGroupedRules_iff {own : NetshEnv} (hown : ∀ k, own.fails k = false) {n : Netsh} (hn : n.Named) :
    (∀ r ∈ (deleteGroupedRules own n).rules, isGroupedRuleName r.name = false) ↔ n.Walkable := by
  have hbase : ∀ i, (((n.delete own winRuleIn).1).delete own winRuleOut).1.Numbered i ↔ n.Numbered i := by
    intro i
    have hname : ∀ name, name = numbered winRuleIn i ∨ name = numbered winRuleOut i →
        name ≠ winRuleIn ∧ name ≠ winRuleOut := by
      rintro name (rfl | rfl)
      · refine ⟨numbered_ne _ _, ?_⟩
        have hne := append_in_ne_append_out ('-' :: Nat.toDigits 10 i) []
        rwa [List.append_nil] at hne
      · refine ⟨?_, numbered_ne _ _⟩
        have hne := append_in_ne_append_out [] ('-' :: Nat.toDigits 10 i)
        rw [List.append_nil] at hne
        exact hne.symm
    simp only [Netsh.Numbered, rules_delete hown, List.mem_filter, decide_eq_true_eq]
    constructor
    · rintro ⟨r, ⟨⟨hr, -⟩, -⟩, hr'⟩
      exact ⟨r, hr, hr'⟩
    · rintro ⟨r, hr, hr'⟩
      exact ⟨r, ⟨⟨hr, (hname _ hr').1⟩, (hname _ hr').2⟩, hr'⟩
  have hwalk := walk_clears hown (((n.delete own winRuleIn).1).delete own winRuleOut).1 100000 1 0
  have hreaches : Reaches (((n.delete own winRuleIn).1).delete own winRuleOut).1 1 100000 0 ↔
      n.Walkable := by
    constructor
    · intro h j hj hnum
      obtain ⟨hlt, -, hgaps⟩ := h j hj ((hbase j).mpr hnum)
      refine ⟨by omega, fun k hk hkj => ?_⟩
      obtain ⟨m, hkm, hmk, hm⟩ := hgaps k hk hkj
      exact ⟨m, hkm, hmk, (hbase m).mp hm⟩
    · intro h j hj hnum
      obtain ⟨hle, hgaps⟩ := h j hj ((hbase j).mp hnum)
      refine ⟨by omega, ?_, fun k hk hkj => ?_⟩
      · by_cases hnear : j < 9
        · exact ⟨j, hj, by omega, hnum⟩
        · obtain ⟨m, hkm, hmk, hm⟩ := hgaps 1 le_rfl (by omega)
          exact ⟨m, hkm, by omega, (hbase m).mpr hm⟩
      · obtain ⟨m, hkm, hmk, hm⟩ := hgaps k hk hkj
        exact ⟨m, hkm, hmk, (hbase m).mpr hm⟩
  rw [← hreaches, ← hwalk]
  constructor
  · rintro h j hj ⟨r, hr, hname⟩
    have hgrouped := isGroupedRuleName_of_groupName (.inr ⟨j, hj, hname⟩)
    exact absurd (hgrouped.symm.trans (h r hr)) Bool.false_ne_true.symm
  · intro h r hr
    rw [← Bool.not_eq_true]
    intro hgrouped
    have hmem : r ∈ (((n.delete own winRuleIn).1).delete own winRuleOut).1.rules :=
      mem_of_mem_walk _ _ _ hr
    simp only [rules_delete hown, List.mem_filter, decide_eq_true_eq] at hmem
    obtain ⟨⟨hr', hin⟩, hout⟩ := hmem
    rcases hn r hr' hgrouped with hname | ⟨i, hi, hname⟩
    · exact hname.elim hin hout
    · exact h i hi ⟨r, hr, hname⟩

/-! ## A gap of eight -/

section gap
variable {env : NetshEnv} {st : Sync} {g : GroupedRule} {n : Netsh} {name ipList : List Char} {dir : Direction}

theorem delete_failed (h : env.fails n.ran = true) :
    (n.delete env name).1.rules = n.rules ∧ (n.delete env name).1.ran = n.ran + 1 := by
  unfold Netsh.delete
  rw [if_pos h]
  split
  · exact ⟨rfl, rfl⟩
  · exact ⟨rfl, rfl⟩

theorem add_failed (h : env.fails n.ran = true) :
    n.add env name dir ipList = ({ n with ran := n.ran + 1 }, false) := if_pos h

theorem netshRetry_failed (h : ∀ k < n.ran + 3, env.fails k = true) :
    netshRetry env n name dir ipList = ({ n with ran := n.ran + 3 }, false) := by
  have hfirst := @add_failed env n name ipList dir (h n.ran (by omega))
  have hsecond := @add_failed env { n with ran := n.ran + 1 } name ipList dir (h (n.ran + 1) (by omega))
  have hthird := @add_failed env { n with ran := n.ran + 2 } name ipList dir (h (n.ran + 2) (by omega))
  rw [netshRetry, hfirst, netshRetryDelays, List.foldl_cons, List.foldl_cons, List.foldl_nil]
  simp only [Bool.false_eq_true, if_false]
  rw [hsecond]
  simp only [Bool.false_eq_true, if_false]
  rw [hthird]

theorem syncGroup_failed (hnew : ∀ m, st.applied.lookup m = none)
    (hfails : ∀ k < st.netsh.ran + 4, env.fails k = true) :
    (syncGroup env st g).netsh.rules = st.netsh.rules ∧
      (syncGroup env st g).netsh.ran = st.netsh.ran + 4 ∧
      ∀ m, (syncGroup env st g).applied.lookup m = none := by
  obtain ⟨hrules, hran⟩ := @delete_failed env st.netsh g.name (hfails _ (by omega))
  have hretry : applyGroupedRule env st.netsh g false =
      ({ (st.netsh.delete env g.name).1 with ran := st.netsh.ran + 4 }, false) := by
    have h := @netshRetry_failed env (st.netsh.delete env g.name).1 g.name g.ipList g.dir
      fun k hk => hfails k (by omega)
    rw [hran] at h
    exact h
  have hnone : st.applied.lookup g.name = none := hnew g.name
  unfold syncGroup
  rw [hnone, if_neg (by nofun), Option.isSome_none, hretry]
  refine ⟨hrules, rfl, fun m => ?_⟩
  by_cases hm : m = g.name
  · rw [hm]
    exact AList.lookup_erase _ _
  · exact (AList.lookup_erase_ne hm).trans (hnew m)

theorem syncGroups_failed (gs : List GroupedRule) (hnew : ∀ m, st.applied.lookup m = none)
    (hfails : ∀ k < st.netsh.ran + 4 * gs.length, env.fails k = true) :
    (gs.foldl (syncGroup env) st).netsh.rules = st.netsh.rules ∧
      (gs.foldl (syncGroup env) st).netsh.ran = st.netsh.ran + 4 * gs.length ∧
      ∀ m, (gs.foldl (syncGroup env) st).applied.lookup m = none := by
  induction gs generalizing st with
  | nil => exact ⟨rfl, rfl, hnew⟩
  | cons g gs ih =>
    rw [List.length_cons] at hfails
    obtain ⟨hrules, hran, hnew'⟩ := @syncGroup_failed env st g hnew fun k hk => hfails k (by omega)
    obtain ⟨hrules', hran', hnew''⟩ := ih hnew' fun k hk => hfails k (by omega)
    exact ⟨hrules'.trans hrules, by rw [List.foldl_cons, hran', hran, List.length_cons]; omega, hnew''⟩

theorem syncGroup_added (hnew : st.applied.lookup g.name = none)
    (hok : ∀ k ≥ st.netsh.ran, env.fails k = false) :
    (∀ r ∈ (syncGroup env st g).netsh.rules, r ∈ st.netsh.rules ∨ r.name = g.name) ∧
      st.netsh.ran ≤ (syncGroup env st g).netsh.ran ∧
      (syncGroup env st g).applied = st.applied.insert g.name g.ipList := by
  have hran : (st.netsh.delete env g.name).1.ran = st.netsh.ran + 1 := by
    unfold Netsh.delete
    split
    · split
      · rfl
      · rfl
    · rfl
  have hadd : netshRetry env (st.netsh.delete env g.name).1 g.name g.dir g.ipList =
      ({ (st.netsh.delete env g.name).1 with
        ran := st.netsh.ran + 2
        rules := (st.netsh.delete env g.name).1.rules ++ [⟨g.name, g.dir, .block, g.ipList, true⟩] },
        true) := by
    have hadded : (st.netsh.delete env g.name).1.add env g.name g.dir g.ipList =
        ({ (st.netsh.delete env g.name).1 with
          ran := (st.netsh.delete env g.name).1.ran + 1
          rules := (st.netsh.delete env g.name).1.rules ++ [⟨g.name, g.dir, .block, g.ipList, true⟩] },
          true) := by
      rw [Netsh.add, if_neg]
      rw [hok _ (by omega)]
      exact Bool.false_ne_true
    rw [netshRetry, hadded, hran]
    rfl
  have happly : applyGroupedRule env st.netsh g false =
      netshRetry env (st.netsh.delete env g.name).1 g.name g.dir g.ipList := rfl
  unfold syncGroup
  rw [hnew, if_neg (by nofun), Option.isSome_none, happly, hadd]
  refine ⟨fun r hr => ?_, Nat.le_add_right _ 2, rfl⟩
  rcases List.mem_append.mp hr with hr | hr
  · exact .inl (deleted_delete.mem r hr)
  · rw [List.mem_singleton.mp hr]
    exact .inr rfl

theorem dropGroups_wanted {want names : List (List Char)} (h : ∀ m ∈ names, m ∈ want) :
    names.foldl (dropGroup env want) st = st := by
  induction names with
  | nil => rfl
  | cons m names ih =>
    rw [List.foldl_cons, dropGroup, if_pos (h m List.mem_cons_self)]
    exact ih fun q hq => h q (List.mem_cons_of_mem m hq)

end gap

theorem desired_of_length {ips : List String} {k : Nat} (hk : 0 < k)
    (hlen : ips.length = k * maxIPsPerRule + 1) :
    ∃ gs chunk, gs.length = 2 * k ∧ desiredGroupedRules ips =
      gs ++ [⟨numbered winRuleIn (k + 1), .in, chunk, ips.drop (k * maxIPsPerRule)⟩,
        ⟨numbered winRuleOut (k + 1), .out, chunk, ips.drop (k * maxIPsPerRule)⟩] := by
  have hgroups : (ips.length + maxIPsPerRule - 1) / maxIPsPerRule = k + 1 := by
    rw [hlen, maxIPsPerRule]
    omega
  have hlast : (ips.drop (k * maxIPsPerRule)).take maxIPsPerRule = ips.drop (k * maxIPsPerRule) := by
    apply List.take_of_length_le
    rw [List.length_drop, hlen, Nat.add_sub_cancel_left]
    decide
  have hslices : slices maxIPsPerRule ips =
      (List.range k).map (fun i => (ips.drop (i * maxIPsPerRule)).take maxIPsPerRule) ++
        [ips.drop (k * maxIPsPerRule)] := by
    rw [slices, hgroups, List.range_succ, List.map_append, List.map_singleton, hlast]
  have hcount : (slices maxIPsPerRule ips).length = k + 1 := by
    rw [hslices]
    simp
  have hin : winRuleIn ++ groupSuffix (k + 1) k = numbered winRuleIn (k + 1) :=
    append_groupSuffix winRuleIn (Nat.succ_lt_succ hk)
  have hout : winRuleOut ++ groupSuffix (k + 1) k = numbered winRuleOut (k + 1) :=
    append_groupSuffix winRuleOut (Nat.succ_lt_succ hk)
  obtain ⟨gs, hgs⟩ : ∃ gs, desiredGroupedRules ips =
      gs ++ groupedRules (groupSuffix (k + 1) k) (ips.drop (k * maxIPsPerRule)) := by
    rw [desiredGroupedRules]
    dsimp only
    rw [hcount, hslices, List.zipIdx_append, List.flatMap_append]
    refine ⟨_, congrArg _ ?_⟩
    simp
  rw [groupedRules, hin, hout] at hgs
  refine ⟨gs, _, ?_, hgs⟩
  · have htwo := length_desired ips
    rw [hcount, hgs, List.length_append] at htwo
    exact Nat.add_right_cancel (htwo.trans (Nat.mul_succ 2 k))

theorem syncRules_gap {env : NetshEnv} {f : WindowsFirewall} {ips : List String} {k : Nat} (hk : 0 < k)
    (hlen : ips.length = k * maxIPsPerRule + 1) (happlied : f.appliedRules = none) (hrules : f.netsh.rules = [])
    (hfails : ∀ m < f.netsh.ran + 8 * k, env.fails m = true)
    (hok : ∀ m ≥ f.netsh.ran + 8 * k, env.fails m = false) :
    (∀ r ∈ (f.syncRules env ips).1.netsh.rules,
      r.name = numbered winRuleIn (k + 1) ∨ r.name = numbered winRuleOut (k + 1)) ∧
      ∃ a, (f.syncRules env ips).1.appliedRules = some a ∧ numbered winRuleIn (k + 1) ∈ a := by
  obtain ⟨gs, chunk, hgs, hdesired⟩ := desired_of_length hk hlen
  obtain ⟨hrules', hran, hnew⟩ := @syncGroups_failed env ⟨f.netsh, ∅, [], 0, none⟩ gs
    (fun m => AList.lookup_empty m) fun m hm => hfails m (by rw [hgs] at hm; dsimp only at hm; omega)
  unfold WindowsFirewall.syncRules
  dsimp only
  rw [happlied, hdesired, List.foldl_append, Option.getD_none]
  generalize gs.foldl (syncGroup env) ⟨f.netsh, ∅, [], 0, none⟩ = st at hrules' hran hnew
  rw [hgs] at hran
  dsimp only at hran
  -- both rules of the last group are written
  obtain ⟨hin, hran', happ⟩ := @syncGroup_added env st
    ⟨numbered winRuleIn (k + 1), .in, chunk, ips.drop (k * maxIPsPerRule)⟩ (hnew _)
    fun m hm => hok m (by omega)
  rw [List.foldl_cons, List.foldl_cons, List.foldl_nil]
  generalize syncGroup env st
    ⟨numbered winRuleIn (k + 1), .in, chunk, ips.drop (k * maxIPsPerRule)⟩ = st' at hin hran' happ
  dsimp only at happ hin
  have hnew' : st'.applied.lookup (numbered winRuleOut (k + 1)) = none := by
    rw [happ, AList.lookup_insert_ne (numbered_in_ne_out (k + 1) (k + 1)).symm]
    exact hnew _
  obtain ⟨hout, -, happ'⟩ := @syncGroup_added env st'
    ⟨numbered winRuleOut (k + 1), .out, chunk, ips.drop (k * maxIPsPerRule)⟩ hnew'
    fun m hm => hok m (by omega)
  generalize syncGroup env st'
    ⟨numbered winRuleOut (k + 1), .out, chunk, ips.drop (k * maxIPsPerRule)⟩ = st'' at hout happ'
  dsimp only at happ' hout
  have hkeys : ∀ m, m ∈ st''.applied → m = numbered winRuleIn (k + 1) ∨ m = numbered winRuleOut (k + 1) := by
    intro m hm
    rw [happ', AList.mem_insert, happ, AList.mem_insert] at hm
    rcases hm with hm | hm | hm
    · exact .inr hm
    · exact .inl hm
    · exact absurd (hnew m) (by rwa [← ne_eq, ← Option.isSome_iff_ne_none, AList.lookup_isSome])
  rw [dropGroups_wanted]
  · have hnames : ∀ r ∈ st''.netsh.rules,
        r.name = numbered winRuleIn (k + 1) ∨ r.name = numbered winRuleOut (k + 1) := by
      intro r hr
      rcases hout r hr with hr | hr
      · rcases hin r hr with hr | hr
        · rw [hrules'] at hr
          rw [hrules] at hr
          exact absurd hr List.not_mem_nil
        · exact .inl hr
      · exact .inr hr
    refine ⟨?_, _, rfl, ?_⟩
    · split
      · exact fun r hr => hnames r (deleted_delete.mem r (deleted_delete.mem r hr))
      · exact hnames
    · rw [happ', AList.mem_insert, happ, AList.mem_insert]
      exact .inr (.inl rfl)
  · intro m hm
    rw [List.map_append, List.mem_append]
    refine .inr ?_
    have hmem := hkeys m (AList.mem_keys.mp ((env.perm _ _).mem_iff.mp hm))
    simpa using hmem

/-! ### The run -/

/-- Host `i` of 10.0.0.0/8. -/
def hostNet (i : Nat) : Net := Net.ofHost .v4 ((10 * 2 ^ 24 + i) % 2 ^ 32) (Nat.mod_lt _ (by decide))

def hostEntry (i : Nat) : String := String.ofList (hostNet i).text

theorem hostNet_not_mapped (i : Nat) : ¬ (hostNet i).IsMapped := fun h => nomatch h.1

theorem canonicalBanEntry_hostEntry (i : Nat) :
    canonicalBanEntry (hostEntry i) = some (hostEntry i, hostNet i) := by
  rw [canonicalBanEntry_eq, hostEntry, String.toList_ofList, goTrim_text (hostNet_not_mapped i),
    readTarget_text (hostNet_not_mapped i)]
  rfl

theorem hostEntry_injective {i j : Nat} (hi : i < 2 ^ 24) (hj : j < 2 ^ 24) (h : hostEntry i = hostEntry j) :
    i = j := by
  have htext := Net.text_injective (hostNet_not_mapped i) (hostNet_not_mapped j) (String.ofList_injective h)
  have hhost : ∀ k, (hostNet k).addr = (10 * 2 ^ 24 + k) % 2 ^ 32 := fun k => clearLow_zero _
  have haddr : (10 * 2 ^ 24 + i) % 2 ^ 32 = (10 * 2 ^ 24 + j) % 2 ^ 32 := by
    rw [← hhost i, ← hhost j, htext]
  omega

theorem calls_bans {env : NetshEnv} (is : List Nat) {f : WindowsFirewall} (hloaded : f.loaded = true)
    (hnodup : (f.cache ++ is.map hostEntry).Nodup) :
    (is.map fun i => WinCall.ban (hostEntry i)).foldl (WindowsFirewall.call env) f =
      { f with cache := f.cache ++ is.map hostEntry, dirty := f.dirty || !is.isEmpty } := by
  induction is generalizing f with
  | nil => simp
  | cons i is ih =>
    have hnew : hostEntry i ∉ f.cache := by
      rw [List.nodup_append'] at hnodup
      exact fun hmem => hnodup.2.2 hmem List.mem_cons_self
    have hban : f.call env (.ban (hostEntry i)) = { f with cache := f.cache ++ [hostEntry i], dirty := true } := by
      show (f.banIP env (hostEntry i)).1 = _
      rw [WindowsFirewall.banIP, WindowsFirewall.loadCache, if_pos hloaded, canonicalBanEntry_hostEntry]
      dsimp only
      rw [if_neg hnew]
    rw [List.map_cons, List.foldl_cons, hban, ih]
    · simp
    · exact hloaded
    · simpa using hnodup

/-- A process reports, bans hosts of 10.0.0.0/8 and flushes. -/
def banHosts (is : List Nat) : List NetshAction :=
  .call .report :: (is.map fun i => NetshAction.call (.ban (hostEntry i))) ++ [.call .flush]

theorem flush_gap {env : NetshEnv} {f : WindowsFirewall} (hloaded : f.loaded = true) (hdirty : f.dirty = true)
    (hcleaned : f.legacyCleaned = false) {k : Nat} (hk : 0 < k)
    (hlen : f.cache.length = k * maxIPsPerRule + 1) (happlied : f.appliedRules = none)
    (hrules : f.netsh.rules = []) (hfails : ∀ m < f.netsh.ran + 8 * k, env.fails m = true)
    (hok : ∀ m ≥ f.netsh.ran + 8 * k, env.fails m = false) :
    (f.flush env).1.netsh.Numbered (k + 1) ∧ ∀ r ∈ (f.flush env).1.netsh.rules,
      r.name = numbered winRuleIn (k + 1) ∨ r.name = numbered winRuleOut (k + 1) := by
  have hlen' : (f.cache.insertionSort (· ≤ ·)).length = k * maxIPsPerRule + 1 := by rw [List.length_insertionSort, hlen]
  unfold WindowsFirewall.flush
  dsimp only
  rw [WindowsFirewall.loadCache, if_pos hloaded, if_neg (not_not.mpr hdirty)]
  generalize f.cache.insertionSort (· ≤ ·) = ips at hlen'
  obtain ⟨hnames, a, ha, hlast⟩ := @syncRules_gap env { f with dirty := false } ips k hk hlen' happlied
    hrules hfails hok
  have hmirror : Mirror f.netsh (f.appliedRules.getD ∅) := by
    intro m l hm
    rw [happlied, Option.getD_none, AList.lookup_empty] at hm
    contradiction
  have htidy : Tidy (fun _ => True) f.netsh (f.appliedRules.getD ∅) := by
    intro r hr
    rw [hrules] at hr
    exact absurd hr List.not_mem_nil
  obtain ⟨a', ha', hsynced⟩ := @synced_syncRules env _ { f with dirty := false } ips hmirror htidy
    fun _ _ => trivial
  have hleg := (@syncRules_frame env { f with dirty := false } ips).2.2.1
  generalize WindowsFirewall.syncRules env { f with dirty := false } ips = out at hnames ha ha' hsynced hleg
  obtain ⟨g, err⟩ := out
  dsimp only at hnames ha ha' hsynced hleg ⊢
  rw [ha] at ha'
  rw [WindowsFirewall.firstCleanup, if_neg (by rw [hleg, hcleaned]; exact Bool.false_ne_true), ha]
  obtain rfl := Option.some.inj ha'
  obtain ⟨l, hl⟩ := Option.isSome_iff_exists.mp (AList.lookup_isSome.mpr hlast)
  refine ⟨⟨_, (hsynced.cleanup.mirror _ l hl), .inl rfl⟩, fun r hr => hnames r (mem_cleanupStaleRules hr)⟩

theorem netshRun_banHosts {k : Nat} (hk : 0 < k) (hbound : k * maxIPsPerRule + 1 ≤ 2 ^ 24) :
    (netshRun [] (netshEnv (List.range (8 * k + 1))) none
        (banHosts (List.range (k * maxIPsPerRule + 1)))).Numbered (k + 1) ∧
      ∀ r ∈ (netshRun [] (netshEnv (List.range (8 * k + 1))) none
          (banHosts (List.range (k * maxIPsPerRule + 1)))).rules,
        r.name = numbered winRuleIn (k + 1) ∨ r.name = numbered winRuleOut (k + 1) := by
  obtain ⟨is, his⟩ : ∃ is, is = List.range (k * maxIPsPerRule + 1) := ⟨_, rfl⟩
  have hlen : is.length = k * maxIPsPerRule + 1 := by rw [his, List.length_range]
  have hnodup : (is.map hostEntry).Nodup := by
    rw [his]
    refine List.Nodup.map_on (fun i hi j hj => hostEntry_injective ?_ ?_) List.nodup_range
    · exact lt_of_lt_of_le (List.mem_range.mp hi) hbound
    · exact lt_of_lt_of_le (List.mem_range.mp hj) hbound
  rw [← his]
  have hcalls : ∀ (env : NetshEnv) (cs : List WinCall) (f : WindowsFirewall),
      (cs.map NetshAction.call).foldl netshStep (env, f) = (env, cs.foldl (WindowsFirewall.call env) f) := by
    intro env cs
    induction cs with
    | nil => exact fun f => rfl
    | cons c cs ih => exact fun f => ih _
  have hban : banHosts is =
      ((WinCall.report :: is.map fun i => WinCall.ban (hostEntry i)) ++ [WinCall.flush]).map .call := by
    simp [banHosts]
  have hfirst : (WindowsFirewall.start [] none).call (netshEnv (List.range (8 * k + 1))) .report =
      { WindowsFirewall.start [] none with netsh := ⟨[], 1, []⟩, loaded := true } := by
    have hzero : (netshEnv (List.range (8 * k + 1))).fails 0 = true :=
      decide_eq_true (List.mem_range.mpr (Nat.succ_pos _))
    have hlegacy : getLegacyIPs (netshEnv (List.range (8 * k + 1))) ⟨[], 0, []⟩ = (⟨[], 1, []⟩, []) := by
      unfold getLegacyIPs Netsh.show
      rw [if_pos hzero]
    simp only [WindowsFirewall.call, WindowsFirewall.getBannedIPs, WindowsFirewall.loadCache,
      WindowsFirewall.start, hlegacy]
    rfl
  have hrun : netshRun [] (netshEnv (List.range (8 * k + 1))) none (banHosts is) =
      (WindowsFirewall.flush (netshEnv (List.range (8 * k + 1)))
        { WindowsFirewall.start [] none with
          netsh := ⟨[], 1, []⟩
          loaded := true
          cache := is.map hostEntry
          dirty := false || !is.isEmpty }).1.netsh := by
    have hbans := @calls_bans (netshEnv (List.range (8 * k + 1))) is
      { WindowsFirewall.start [] none with netsh := ⟨[], 1, []⟩, loaded := true } rfl hnodup
    rw [netshRun, hban, hcalls, List.foldl_append, List.foldl_cons (l := is.map _), hfirst, hbans]
    rfl
  have hdirty : (false || !is.isEmpty) = true := by
    cases is with
    | nil => contradiction
    | cons i is => rfl
  rw [hrun]
  refine flush_gap rfl hdirty rfl hk ?_ rfl rfl (fun m hm => ?_) fun m hm => ?_
  · rw [List.length_map, hlen]
  · have hlt : m < 1 + 8 * k := hm
    exact decide_eq_true (List.mem_range.mpr (by omega))
  · refine decide_eq_false fun hmem => ?_
    have hlt := List.mem_range.mp hmem
    have hge : 1 + 8 * k ≤ m := hm
    omega

theorem number_of_names {n : Netsh} {i j : Nat}
    (hnames : ∀ r ∈ n.rules, r.name = numbered winRuleIn i ∨ r.name = numbered winRuleOut i)
    (h : n.Numbered j) : j = i := by
  obtain ⟨r, hr, hname⟩ := h
  rcases hnames r hr with hi | hi
  · rcases hname with hj | hj
    · exact numbered_injective (hj.symm.trans hi)
    · exact absurd (hi.symm.trans hj) (numbered_in_ne_out i j)
  · rcases hname with hj | hj
    · exact absurd (hj.symm.trans hi) (numbered_in_ne_out j i)
    · exact numbered_injective (hj.symm.trans hi)

/-! ## What is left -/

/-- Whatever commands fail in whatever run of whatever processes, from rules with no grouped one:
`deleteGroupedRules` leaves no grouped rule exactly where no number that is there has eight absent ones in
a row below it. -/
theorem deleteGroupedRules_clears (own : NetshEnv) (hown : ∀ k, own.fails k = false) (rules : List Rule)
    (hrules : ∀ r ∈ rules, isGroupedRuleName r.name = false) (env : NetshEnv)
    (banlist : Option (List Char)) (as : List NetshAction) :
    (∀ r ∈ (deleteGroupedRules own (netshRun rules env banlist as)).rules,
      isGroupedRuleName r.name = false) ↔ (netshRun rules env banlist as).Walkable :=
  deleteGroupedRules_iff hown (named_netshRun hrules env banlist as)

/-- Of two groups the first failed: the walk passes over the number 1 and deletes the rules of 2. -/
theorem deleteGroupedRules_clears_one :
    let n := netshRun [] (netshEnv (List.range 9)) none (banHosts (List.range 501))
    n.Numbered 2 ∧ (∀ r ∈ (deleteGroupedRules (netshEnv []) n).rules, isGroupedRuleName r.name = false) := by
  intro n
  obtain ⟨htwo, hnames⟩ := @netshRun_banHosts 1 Nat.one_pos (by decide)
  refine ⟨htwo, ?_⟩
  refine (deleteGroupedRules_clears (netshEnv []) (fun _ => rfl) [] nofun (netshEnv (List.range 9)) none
    (banHosts (List.range 501))).mpr fun j hj hnum => ?_
  have hj2 : j = 2 := number_of_names hnames hnum
  exact ⟨by omega, fun k hk hkj => by omega⟩

/-- With the first eight of nine groups failed, `deleteGroupedRules` leaves the ninth. -/
theorem absent_groups_keep_rule :
    ¬ ∀ r ∈ (deleteGroupedRules (netshEnv []) (netshRun [] (netshEnv (List.range 65)) none
        (banHosts (List.range 4001)))).rules,
      isGroupedRuleName r.name = false := by
  obtain ⟨hnine, hnames⟩ := @netshRun_banHosts 8 (by decide) (by decide)
  rw [deleteGroupedRules_iff (fun _ => rfl) (named_netshRun (List.forall_mem_nil _) _ _ _)]
  intro hwalkable
  obtain ⟨m, hm1, hm9, hnum⟩ := (hwalkable 9 (by decide) hnine).2 1 le_rfl le_rfl
  have hm : m = 9 := number_of_names hnames hnum
  omega

end Obliguard.Agent

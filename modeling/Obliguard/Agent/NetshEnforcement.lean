import Obliguard.Agent.NetshSync
import Obliguard.Agent.IntervalSet

/-!
# The netsh backend against its list

Over any sequence of calls, and whatever commands fail: after each `Flush` the entries reported are
blocked in both directions (`netsh_reports_enforced`), and after one that returns nil no grouped rule
lists another address, provided that no delete command is still due on its name (`netsh_blocks_list`).
The code ignores the result of its delete commands and forgets the group either way:
`netsh_keeps_lifted` is a run in which a lifted address stays blocked.
-/

namespace Obliguard.Agent

/-- The mirror, empty before the first sync. -/
def WindowsFirewall.mirrored (f : WindowsFirewall) : AppliedRules := f.appliedRules.getD ∅

/-- What is reported is blocked. -/
def Reported (f : WindowsFirewall) : Prop :=
  ∀ ip ∈ f.cache, ip ∉ f.unapplied → ∀ dir, f.netsh.Blocks dir ip

/-- No rule of the names `G` lists an address that is not in the ban list, unless a delete command is
still due on its name. -/
def Clean (G : List Char → Prop) (f : WindowsFirewall) : Prop :=
  ∀ r ∈ f.netsh.rules, G r.name →
    r.name ∈ f.netsh.kept ∨ ∀ e ∈ r.entries, ∃ ip ∈ f.cache, ip.toList = e

structure WinInv (G : List Char → Prop) (f : WindowsFirewall) : Prop where
  mirror : Mirror f.netsh f.mirrored
  tidy : Tidy (fun m => m ∈ f.mirrored ∨ f.listed = true ∧ G m) f.netsh f.mirrored
  commas : ∀ ip ∈ f.cache, ',' ∉ ip.toList
  unloaded : f.loaded = false → f.legacyCleaned = false
  uncleaned : f.legacyCleaned = false → f.listed = false
  reported : f.dirty = false → Reported f
  clean : f.dirty = false → f.listed = true → Clean G f

section invariant
variable {env : NetshEnv} {G : List Char → Prop} {f : WindowsFirewall}

theorem winInv_start (rules : List Rule) (banlist : Option (List Char)) :
    WinInv G (WindowsFirewall.start rules banlist) where
  mirror := fun name l h => by
    rw [WindowsFirewall.mirrored, WindowsFirewall.start, Option.getD_none, AList.lookup_empty] at h
    contradiction
  tidy := fun r _ hP => by
    rcases hP with hP | ⟨hlisted, -⟩
    · exact absurd hP (AList.notMem_empty r.name)
    · contradiction
  commas := nofun
  unloaded := fun _ => rfl
  uncleaned := fun _ => rfl
  reported := fun _ => nofun
  clean := fun _ h => Bool.noConfusion h

/-! ### Entries -/

theorem comma_not_mem_key {s k : String} {p : Net} (h : canonicalBanEntry s = some (k, p)) : ',' ∉ k.toList := by
  have hmapped := not_isMapped_of_canonicalBanEntry h
  rw [canonicalBanEntry_eq] at h
  obtain ⟨n, hn, heq⟩ := Option.map_eq_some_iff.mp h
  obtain ⟨rfl, rfl⟩ := Prod.mk.inj heq
  rw [String.toList_ofList]
  intro hmem
  rcases (readTarget_spec (readTarget_text hmapped)).1 ',' hmem with h | h | h | h
  · contradiction
  · contradiction
  · contradiction
  · exact absurd h (by decide)

theorem comma_not_mem_legacyIP {raw : List Char} {k : String} (h : legacyIP raw = some k) : ',' ∉ k.toList := by
  unfold legacyIP at h
  split at h
  · contradiction
  · dsimp only at h
    split at h
    · obtain ⟨⟨k', p⟩, hp, rfl⟩ := Option.map_eq_some_iff.mp h
      exact comma_not_mem_key hp
    · contradiction

theorem comma_not_mem_banlistEntries {data : List Char} {k : String} (h : k ∈ banlistEntries data) :
    ',' ∉ k.toList := by
  obtain ⟨line, -, hline⟩ := List.mem_filterMap.mp h
  obtain ⟨⟨k', p⟩, hp, rfl⟩ := Option.map_eq_some_iff.mp hline
  exact comma_not_mem_key hp

/-! ### The calls -/

theorem getLegacyIPs_spec (env : NetshEnv) (n : Netsh) :
    (getLegacyIPs env n).1.rules = n.rules ∧ (getLegacyIPs env n).1.kept = n.kept ∧
      ∀ ip ∈ (getLegacyIPs env n).2, ',' ∉ ip.toList := by
  unfold getLegacyIPs Netsh.show
  by_cases hfails : env.fails n.ran = true
  · rw [if_pos hfails]
    exact ⟨rfl, rfl, nofun⟩
  · rw [if_neg hfails]
    refine ⟨rfl, rfl, fun ip hip => ?_⟩
    obtain ⟨raw, -, hraw⟩ := List.mem_filterMap.mp (mem_distinct.mp hip)
    exact comma_not_mem_legacyIP hraw

theorem winInv_loadCache (h : WinInv G f) : WinInv G (f.loadCache env) ∧ (f.loadCache env).loaded = true := by
  unfold WindowsFirewall.loadCache
  split
  · rename_i hloaded
    exact ⟨h, hloaded⟩
  · rename_i hloaded
    obtain ⟨hrules, hkept, hlegacy⟩ := getLegacyIPs_spec env f.netsh
    generalize getLegacyIPs env f.netsh = out at hrules hkept hlegacy
    obtain ⟨n, legacyIPs⟩ := out
    have hunlisted := h.uncleaned (h.unloaded (Bool.not_eq_true _ ▸ hloaded))
    refine ⟨⟨fun name l hl => hrules ▸ h.mirror name l hl, fun r hr hP => ?_, fun ip hip => ?_, nofun,
      h.uncleaned, fun hdirty => ?_, fun _ hlisted => ?_⟩, rfl⟩
    · rw [show (_ : Netsh).kept = f.netsh.kept from hkept]
      exact h.tidy r (hrules ▸ hr) hP
    · rcases List.mem_append.mp (mem_distinct.mp hip) with hip | hip
      · cases hfile : f.banlist with
        | none =>
          rw [hfile] at hip
          exact absurd hip List.not_mem_nil
        | some data =>
          rw [hfile] at hip
          exact comma_not_mem_banlistEntries hip
      · exact hlegacy ip hip
    · -- nothing was loaded
      have hnil := (Bool.or_eq_false_iff.mp hdirty).2
      rw [decide_eq_false_iff_not, not_not] at hnil
      intro ip hip
      rw [show (_ : WindowsFirewall).cache = [] from hnil] at hip
      exact absurd hip List.not_mem_nil
    · exact absurd (hunlisted.symm.trans hlisted) Bool.false_ne_true

theorem winInv_banIP (h : WinInv G f) (ip : String) : WinInv G (f.banIP env ip).1 := by
  have hload := (@winInv_loadCache env G f h).1
  unfold WindowsFirewall.banIP
  dsimp only
  generalize f.loadCache env = g at hload
  split
  · exact hload
  · rename_i k p hentry
    split
    · split
      · exact ⟨hload.mirror, hload.tidy, hload.commas, hload.unloaded, hload.uncleaned, nofun, nofun⟩
      · exact hload
    · refine ⟨hload.mirror, hload.tidy, fun ip hip => ?_, hload.unloaded, hload.uncleaned, nofun, nofun⟩
      rcases List.mem_append.mp hip with hip | hip
      · exact hload.commas ip hip
      · rw [List.mem_singleton.mp hip]
        exact comma_not_mem_key hentry

theorem winInv_unbanIP (h : WinInv G f) (ip : String) : WinInv G (f.unbanIP env ip) := by
  have hload := (@winInv_loadCache env G f h).1
  unfold WindowsFirewall.unbanIP
  dsimp only
  generalize f.loadCache env = g at hload
  split
  · exact ⟨hload.mirror, hload.tidy, fun ip hip => hload.commas ip (List.mem_filter.mp hip).1,
      hload.unloaded, hload.uncleaned, nofun, nofun⟩
  · exact hload

/-! ### `Flush` -/

section synced
variable {P : List Char → Prop} {ips : List String} {err : Option NetshError}

theorem reported_of_synced (hcommas : ∀ ip ∈ ips, ',' ∉ ip.toList) (hips : ∀ ip ∈ f.cache, ip ∈ ips)
    (h : Synced P ips f.netsh f.mirrored f.unapplied err) : Reported f := by
  intro ip hip hun dir
  obtain ⟨r, hr, hdir, hmem⟩ := exists_desired (hips ip hip) dir
  rcases h.covered r hr with happlied | hunapplied
  · refine ⟨_, h.mirror _ _ happlied, ?_, rfl, rfl, ?_⟩
    · exact (dir_of_mem_desired hr).symm.trans hdir
    · show ip.toList ∈ r.ipList.splitOn ','
      rw [splitOn_ipList hr hcommas]
      exact List.mem_map_of_mem hmem
  · exact absurd (hunapplied ip hmem) hun

theorem clean_of_synced (hcommas : ∀ ip ∈ ips, ',' ∉ ip.toList) (hips : ∀ ip ∈ ips, ip ∈ f.cache)
    (h : Synced P ips f.netsh f.mirrored f.unapplied none) (hP : ∀ m, G m → P m) : Clean G f := by
  intro r hr hG
  rcases h.tidy r hr (.inl (hP _ hG)) with hkept | ⟨-, hlookup⟩
  · exact .inl hkept
  · have hmem : r.name ∈ f.mirrored := AList.lookup_isSome.mp (by rw [hlookup]; rfl)
    obtain ⟨q, hq, hname⟩ := List.mem_map.mp (h.wanted _ hmem)
    have hlist : q.ipList = r.remoteip := by
      have hcomplete := h.complete rfl q hq
      rw [hname, hlookup] at hcomplete
      exact (Option.some.inj hcomplete).symm
    refine .inr fun e he => ?_
    rw [Rule.entries, ← hlist, splitOn_ipList hq hcommas] at he
    obtain ⟨ip, hip, rfl⟩ := List.mem_map.mp he
    exact ⟨ip, hips ip (mem_of_mem_desired hq ip hip), rfl⟩

end synced

theorem syncRules_frame {ips : List String} : (f.syncRules env ips).1.cache = f.cache ∧
    (f.syncRules env ips).1.loaded = f.loaded ∧
    (f.syncRules env ips).1.legacyCleaned = f.legacyCleaned ∧ (f.syncRules env ips).1.listed = f.listed :=
  ⟨rfl, rfl, rfl, rfl⟩

/-- What holds right after a `Flush`. -/
structure Flushed (G : List Char → Prop) (f : WindowsFirewall) (err : Option NetshError) : Prop where
  inv : WinInv G f
  loaded : f.loaded = true
  reported : Reported f
  clean : err = none → f.listed = true → Clean G f

theorem flushed_of_synced {P : List Char → Prop} {ips : List String} {err : Option NetshError}
    (hcommas : ∀ ip ∈ f.cache, ',' ∉ ip.toList) (hips : ∀ ip, ip ∈ ips ↔ ip ∈ f.cache)
    (hloaded : f.loaded = true) (hcleaned : f.legacyCleaned = true) (hdirty : f.dirty = err.isSome)
    (h : Synced P ips f.netsh f.mirrored f.unapplied err) (hP : ∀ m, f.listed = true → G m → P m) :
    Flushed G f err := by
  have hcommas' : ∀ ip ∈ ips, ',' ∉ ip.toList := fun ip hip => hcommas ip ((hips ip).mp hip)
  have hreported := reported_of_synced hcommas' (fun ip hip => (hips ip).mpr hip) h
  have hclean : err = none → f.listed = true → Clean G f := by
    rintro rfl hlisted
    exact clean_of_synced hcommas' (fun ip hip => (hips ip).mp hip) h fun m => hP m hlisted
  refine ⟨⟨h.mirror, h.tidy.mono fun m hm => ?_, hcommas, fun hfalse => ?_, fun hfalse => ?_,
    fun _ => hreported, fun hfalse => hclean ?_⟩, hloaded, hreported, hclean⟩
  · exact hm.symm.imp (fun hm => hP m hm.1 hm.2) (h.wanted m)
  · exact absurd (hloaded.symm.trans hfalse) nofun
  · exact absurd (hcleaned.symm.trans hfalse) nofun
  · rw [hdirty] at hfalse
    exact Option.not_isSome_iff_eq_none.mp (Bool.not_eq_true _ ▸ hfalse)

/-- The clean-up of the first flush keeps the mirror, and the rules it could list are accounted for. -/
theorem synced_firstCleanup {P : List Char → Prop} {ips : List String} {err : Option NetshError}
    (hG : ∀ rules : List Rule, ∀ r ∈ rules, G r.name → r.name ∈ parseNetshRuleNames (env.output rules))
    (h : Synced P ips f.netsh f.mirrored f.unapplied err) (hP : ∀ m, f.listed = true → G m → P m) :
    ∃ n listed, f.firstCleanup env (slices maxIPsPerRule ips).length =
        { f with netsh := n, legacyCleaned := true, listed } ∧
      ∃ Q, Synced Q ips n f.mirrored f.unapplied err ∧ ∀ m, listed = true → G m → Q m := by
  unfold WindowsFirewall.firstCleanup
  split
  · rename_i hcleaned
    refine ⟨f.netsh, f.listed, ?_, P, h, hP⟩
    rw [← hcleaned]
  · refine ⟨_, _, rfl, ?_⟩
    cases hlisted : (cleanupStaleRules env (f.appliedRules.getD ∅) (slices maxIPsPerRule ips).length
        f.netsh).2 with
    | false => exact ⟨P, h.cleanup, fun m htrue => absurd (hlisted.symm.trans htrue) Bool.false_ne_true⟩
    | true => exact ⟨_, h.listed hG hlisted, fun m _ hm => .inr hm⟩

theorem winInv_flush
    (hG : ∀ rules : List Rule, ∀ r ∈ rules, G r.name → r.name ∈ parseNetshRuleNames (env.output rules))
    (h : WinInv G f) : Flushed G (f.flush env).1 (f.flush env).2 := by
  obtain ⟨hload, hloaded⟩ := @winInv_loadCache env G f h
  unfold WindowsFirewall.flush
  dsimp only
  generalize f.loadCache env = g at hload hloaded
  by_cases hdirty : g.dirty = true
  · rw [if_neg (not_not.mpr hdirty)]
    have hips : ∀ ip, ip ∈ g.cache.insertionSort (· ≤ ·) ↔ ip ∈ g.cache := fun ip =>
      List.mem_insertionSort (· ≤ ·)
    generalize g.cache.insertionSort (· ≤ ·) = ips at hips
    obtain ⟨a, ha, hsynced⟩ := @synced_syncRules env _ { g with dirty := false } ips hload.mirror
      hload.tidy fun m hm => .inl hm
    have hframe := @syncRules_frame env { g with dirty := false } ips
    generalize WindowsFirewall.syncRules env { g with dirty := false } ips = out at ha hsynced hframe
    obtain ⟨g', err⟩ := out
    obtain ⟨hcache, hloaded', -, hlisted⟩ := hframe
    dsimp only at ha hsynced hcache hloaded' hlisted ⊢
    have hmirrored : g'.mirrored = a := by rw [WindowsFirewall.mirrored, ha, Option.getD_some]
    rw [← hmirrored] at hsynced
    obtain ⟨n, listed, heq, Q, hQ, hlistedQ⟩ := synced_firstCleanup hG hsynced fun m hl hm =>
      .inr ⟨hlisted ▸ hl, hm⟩
    rw [heq]
    refine @flushed_of_synced _ _ _ ips _ ?_ ?_ (hloaded'.trans hloaded) rfl rfl hQ hlistedQ
    · exact hcache.symm ▸ hload.commas
    · exact hcache.symm ▸ hips
  · rw [if_pos hdirty]
    exact ⟨hload, hloaded, hload.reported (Bool.not_eq_true _ ▸ hdirty),
      fun _ => hload.clean (Bool.not_eq_true _ ▸ hdirty)⟩

theorem winInv_call
    (hG : ∀ rules : List Rule, ∀ r ∈ rules, G r.name → r.name ∈ parseNetshRuleNames (env.output rules))
    (h : WinInv G f) (c : WinCall) : WinInv G (f.call env c) := by
  cases c with
  | ban ip => exact winInv_banIP h ip
  | unban ip => exact winInv_unbanIP h ip
  | flush => exact (winInv_flush hG h).inv
  | report => exact (winInv_loadCache h).1

theorem winInv_calls
    (hG : ∀ rules : List Rule, ∀ r ∈ rules, G r.name → r.name ∈ parseNetshRuleNames (env.output rules))
    (h : WinInv G f) (cs : List WinCall) : WinInv G (f.calls env cs) := by
  induction cs generalizing f with
  | nil => exact h
  | cons c cs ih => exact ih (winInv_call hG h c)

end invariant

/-! ## What is reported -/

/-- Right after each `Flush` of any sequence of calls, whatever the rules at the start and whatever
commands fail: each entry reported is blocked in either direction. -/
theorem netsh_reports_enforced (env : NetshEnv) (rules : List Rule) (banlist : Option (List Char))
    (cs : List WinCall) :
    let f := (((WindowsFirewall.start rules banlist).calls env cs).flush env).1
    ∀ ip ∈ (f.getBannedIPs env).1, f.netsh.Blocks .in ip ∧ f.netsh.Blocks .out ip := by
  intro f ip hip
  have hnone : ∀ rules : List Rule, ∀ r ∈ rules, False →
      r.name ∈ parseNetshRuleNames (env.output rules) := fun _ _ _ hfalse => hfalse.elim
  have hinv := @winInv_calls env (fun _ => False) _ hnone (winInv_start rules banlist) cs
  have hflushed : Flushed _ f _ := winInv_flush hnone hinv
  rw [WindowsFirewall.getBannedIPs, WindowsFirewall.loadCache, if_pos hflushed.loaded, List.mem_filter,
    decide_eq_true_eq] at hip
  exact ⟨hflushed.reported ip hip.1 hip.2 .in, hflushed.reported ip hip.1 hip.2 .out⟩

/-! ## What is blocked -/

/-- After a `Flush` that returns nil, the clean-up having listed the rules, and with no delete command due
that failed on a grouped rule: no grouped rule lists an address that is not in the ban list. -/
theorem netsh_blocks_list (env : NetshEnv) (hshow : ShowsNames env.output) (rules : List Rule)
    (banlist : Option (List Char)) (cs : List WinCall)
    (hnil : (((WindowsFirewall.start rules banlist).calls env cs).flush env).2 = none)
    (hlisted : (((WindowsFirewall.start rules banlist).calls env cs).flush env).1.listed = true)
    (hkept : ∀ m ∈ (((WindowsFirewall.start rules banlist).calls env cs).flush env).1.netsh.kept,
      isGroupedRuleName m = false) :
    let f := (((WindowsFirewall.start rules banlist).calls env cs).flush env).1
    ∀ r ∈ f.netsh.rules, isGroupedRuleName r.name = true → ∀ e ∈ r.entries, ∃ ip ∈ f.cache, ip.toList = e := by
  intro f r hr hgrouped
  have hG : ∀ rules : List Rule, ∀ r ∈ rules, isGroupedRuleName r.name = true →
      r.name ∈ parseNetshRuleNames (env.output rules) := hshow.mem_parse
  have hinv := @winInv_calls env (fun m => isGroupedRuleName m = true) _ hG (winInv_start rules banlist) cs
  rcases (winInv_flush hG hinv).clean hnil hlisted r hr hgrouped with h | h
  · rw [hkept r.name h] at hgrouped
    contradiction
  · exact h

/-- The line of a rule's name in the output of `show rule` in English. -/
def englishLine (r : Rule) : List Char :=
  "Rule Name".toList ++ ':' :: (List.replicate 28 ' ' ++ r.name ++ ['\r'])

/-- The lines of the output that name the rules. -/
def englishOutput (rules : List Rule) : List Char := rules.flatMap fun r => englishLine r ++ ['\n']

theorem not_mem_englishLine {r : Rule} (hname : isGroupedRuleName r.name = true) : '\n' ∉ englishLine r := by
  have hlabel : '\n' ∉ "Rule Name".toList := by simp
  intro hmem
  rcases List.mem_append.mp hmem with h | h
  · exact hlabel h
  · rcases List.mem_cons.mp h with h | h
    · exact absurd h (by decide)
    · rcases List.mem_append.mp h with h | h
      · rcases List.mem_append.mp h with h | h
        · exact absurd (List.eq_of_mem_replicate h) (by decide)
        · exact ((grouped_chars hname).2 _ h).2.2.2.2.2 rfl
      · exact absurd (List.mem_singleton.mp h) (by decide)

theorem showsNames_englishOutput : ShowsNames englishOutput := by
  intro rules r hr hname
  refine ⟨"Rule Name".toList, List.replicate 28 ' ', ['\r'], by decide +kernel,
    fun c hc => .inl (List.eq_of_mem_replicate hc),
    fun c hc => .inr (List.mem_singleton.mp hc), ?_⟩
  show englishLine r ∈ (englishOutput rules).splitOn '\n'
  induction rules with
  | nil => exact absurd hr List.not_mem_nil
  | cons q rules ih =>
    have hsplit : englishOutput (q :: rules) = englishLine q ++ '\n' :: englishOutput rules := by
      rw [englishOutput, List.flatMap_cons, List.append_assoc, List.singleton_append, ← englishOutput]
    rw [hsplit, List.splitOn_append_cons_self, List.mem_append]
    rcases List.mem_cons.mp hr with heq | hr
    · rw [← heq, List.splitOn_eq_singleton (not_mem_englishLine hname)]
      exact .inl List.mem_cons_self
    · exact .inr (ih hr)

/-- An environment in which the commands `failing` fail. -/
def netshEnv (failing : List Nat) : NetshEnv :=
  ⟨fun n => decide (n ∈ failing), englishOutput, fun _ l => l, fun _ l => List.Perm.refl l⟩

/-- The delete command fails on the group of an address that was lifted: it stays blocked. -/
theorem netsh_keeps_lifted :
    let f := ((WindowsFirewall.start [] none).calls (netshEnv [6])
      [.ban "192.0.2.1", .flush, .unban "192.0.2.1"]).flush (netshEnv [6])
    f.2 = none ∧ f.1.listed = true ∧ f.1.cache = [] ∧
      ∃ r ∈ f.1.netsh.rules, isGroupedRuleName r.name = true ∧ "192.0.2.1".toList ∈ r.entries := by
  decide +kernel

theorem netsh_blocks_list_lifted :
    let f := (((WindowsFirewall.start [] none).calls (netshEnv [])
      [.ban "192.0.2.1", .ban "192.0.2.128/25", .flush, .unban "192.0.2.1"]).flush (netshEnv [])).1
    f.cache = ["192.0.2.128/25"] ∧ ∀ r ∈ f.netsh.rules, isGroupedRuleName r.name = true →
      ∀ e ∈ r.entries, ∃ ip ∈ f.cache, ip.toList = e := by
  intro f
  obtain ⟨hcache, hnil, hlisted, hkept⟩ : f.cache = ["192.0.2.128/25"] ∧
      (((WindowsFirewall.start [] none).calls (netshEnv [])
        [.ban "192.0.2.1", .ban "192.0.2.128/25", .flush, .unban "192.0.2.1"]).flush (netshEnv [])).2 = none ∧
      f.listed = true ∧ ∀ m ∈ f.netsh.kept, isGroupedRuleName m = false := by decide +kernel
  have h := netsh_blocks_list (netshEnv []) showsNames_englishOutput [] none
    [.ban "192.0.2.1", .ban "192.0.2.128/25", .flush, .unban "192.0.2.1"] hnil hlisted hkept
  exact And.intro hcache h

end Obliguard.Agent

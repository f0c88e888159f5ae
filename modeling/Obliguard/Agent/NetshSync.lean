import Obliguard.Agent.GroupedRules

/-!
# What a sync leaves

The mirror is sound when every rule it names is there (`Mirror`), and complete for a set of names when
every rule of these names is in it, unless a delete command failed on the name (`Tidy`). `Synced` is what
`syncRules` establishes, `clean_cleanup` what the clean-up after the first one adds.
-/

namespace Obliguard.Agent

/-- The rule that the agent writes for a group. -/
def groupRule (name ipList : List Char) : Rule := ⟨name, dirOf name, .block, ipList, true⟩

def Mirror (n : Netsh) (a : AppliedRules) : Prop :=
  ∀ name l, a.lookup name = some l → groupRule name l ∈ n.rules

def Tidy (P : List Char → Prop) (n : Netsh) (a : AppliedRules) : Prop :=
  ∀ r ∈ n.rules, P r.name → r.name ∈ n.kept ∨ r.dir = dirOf r.name ∧ a.lookup r.name = some r.remoteip

section steps
variable {n d n' : Netsh} {a a' : AppliedRules} {P Q : List Char → Prop} {name : List Char}

theorem Tidy.mono (h : Tidy P n a) (hPQ : ∀ m, Q m → P m) : Tidy Q n a :=
  fun r hr hQ => h r hr (hPQ r.name hQ)

theorem Mirror.deleted (h : Mirror n a) (hd : Deleted n name d)
    (ha : ∀ m l, a'.lookup m = some l → m ≠ name ∧ a.lookup m = some l) : Mirror d a' := by
  intro m l hm
  obtain ⟨hne, hm⟩ := ha m l hm
  exact hd.mem_of_ne _ (h m l hm) hne

theorem Tidy.deleted (h : Tidy P n a) (hd : Deleted n name d) (ha : ∀ m, m ≠ name → a'.lookup m = a.lookup m) :
    Tidy (fun m => P m ∨ m = name) d a' := by
  intro r hr hP
  by_cases hname : r.name = name
  · rw [hname]
    exact .inl (hd.kept r hr hname)
  · rw [ha r.name hname]
    rcases h r (hd.mem r hr) (hP.resolve_right hname) with hkept | hmirror
    · exact .inl (hd.kept_of_ne _ hkept hname)
    · exact .inr hmirror

theorem lookup_erase_eq_some {m l : List Char} (h : (a.erase name).lookup m = some l) :
    m ≠ name ∧ a.lookup m = some l := by
  have hne : m ≠ name := by
    rintro rfl
    rw [AList.lookup_erase] at h
    contradiction
  rw [AList.lookup_erase_ne hne] at h
  exact ⟨hne, h⟩

/-! ### One group -/

/-- What `applyGroupedRule` makes of the rules. -/
inductive Applies (n : Netsh) (r : GroupedRule) (known : Bool) : Netsh × Bool → Prop
  | update (n' : Netsh) (hknown : known = true)
      (hrules : n'.rules = n.rules.map fun q =>
        if q.name = r.name ∧ q.dir = r.dir then { q with remoteip := r.ipList, enabled := true } else q)
      (hkept : n'.kept = n.kept) : Applies n r known (n', true)
  | recreate (d n' : Netsh) (hd : Deleted n r.name d)
      (hrules : n'.rules = d.rules ++ [⟨r.name, r.dir, .block, r.ipList, true⟩]) (hkept : n'.kept = d.kept) :
      Applies n r known (n', true)
  | fail (d n' : Netsh) (hd : Deleted n r.name d) (hrules : n'.rules = d.rules) (hkept : n'.kept = d.kept) :
      Applies n r known (n', false)

theorem Deleted.congr (h : Deleted n name d) (hrules : n.rules = n'.rules) (hkept : n.kept = n'.kept) :
    Deleted n' name d :=
  ⟨fun r hr => hrules ▸ h.mem r hr, fun r hr => h.mem_of_ne r (hrules ▸ hr), h.kept,
    fun m hm => h.kept_of_ne m (hkept ▸ hm)⟩

theorem applies_recreate {env : NetshEnv} {r : GroupedRule} {known : Bool} (hrules : n'.rules = n.rules)
    (hkept : n'.kept = n.kept) :
    Applies n r known (netshRetry env (n'.delete env r.name).1 r.name r.dir r.ipList) := by
  have hd : Deleted n r.name (n'.delete env r.name).1 := deleted_delete.congr hrules hkept
  have hadded := @added_netshRetry env (n'.delete env r.name).1 r.name r.dir r.ipList
  generalize netshRetry env (n'.delete env r.name).1 r.name r.dir r.ipList = out at hadded
  obtain ⟨m, ok⟩ := out
  cases ok with
  | true => exact .recreate _ m hd hadded.rules hadded.kept
  | false => exact .fail _ m hd hadded.rules hadded.kept

theorem applies_applyGroupedRule (env : NetshEnv) (n : Netsh) (r : GroupedRule) (known : Bool) :
    Applies n r known (applyGroupedRule env n r known) := by
  unfold applyGroupedRule
  cases known with
  | false => exact applies_recreate rfl rfl
  | true =>
    cases hset : (n.set env r.name r.dir r.ipList).2 with
    | true =>
      obtain ⟨hrules, hkept⟩ := set_true hset
      simp only [hset, if_true]
      exact .update _ rfl hrules hkept
    | false =>
      obtain ⟨hrules, hkept⟩ := set_false hset
      simp only [hset, if_true, Bool.false_eq_true, if_false]
      exact applies_recreate hrules hkept

section group
variable {r : GroupedRule} {out : Netsh × Bool}

/-- The mirror after the group. -/
def AppliedRules.after (a : AppliedRules) (r : GroupedRule) (ok : Bool) : AppliedRules :=
  if ok then a.insert r.name r.ipList else a.erase r.name

theorem lookup_after_ne {m : List Char} (ok : Bool) (h : m ≠ r.name) :
    (AppliedRules.after a r ok).lookup m = a.lookup m := by
  cases ok with
  | true => exact AList.lookup_insert_ne h
  | false => exact AList.lookup_erase_ne h

theorem Mirror.applied (h : Mirror n a) (hdir : r.dir = dirOf r.name)
    (happ : Applies n r (a.lookup r.name).isSome out) : Mirror out.1 (a.after r out.2) := by
  intro m l hm
  by_cases hname : m = r.name
  · subst hname
    cases happ with
    | update n' hknown hrules hkept =>
      obtain ⟨prev, hprev⟩ := Option.isSome_iff_exists.mp hknown
      rw [AppliedRules.after, if_pos rfl, AList.lookup_insert] at hm
      rw [hrules]
      refine List.mem_map.mpr ⟨_, h _ _ hprev, ?_⟩
      rw [if_pos ⟨rfl, hdir.symm⟩, ← Option.some.inj hm]
      rfl
    | recreate d n' hd hrules hkept =>
      rw [AppliedRules.after, if_pos rfl, AList.lookup_insert] at hm
      rw [hrules, ← Option.some.inj hm, groupRule, ← hdir]
      exact List.mem_append_right _ (List.mem_singleton.mpr rfl)
    | fail d n' hd hrules hkept =>
      rw [AppliedRules.after, if_neg Bool.false_ne_true, AList.lookup_erase] at hm
      contradiction
  · rw [lookup_after_ne _ hname] at hm
    have hold := h m l hm
    cases happ with
    | update n' hknown hrules hkept =>
      rw [hrules]
      exact List.mem_map.mpr ⟨_, hold, if_neg fun hsame => hname hsame.1⟩
    | recreate d n' hd hrules hkept =>
      rw [hrules]
      exact List.mem_append_left _ (hd.mem_of_ne _ hold hname)
    | fail d n' hd hrules hkept =>
      rw [hrules]
      exact hd.mem_of_ne _ hold hname

/-- Once the group was written or deleted, its name is accounted for. -/
theorem Tidy.applied (h : Tidy P n a) (hdir : r.dir = dirOf r.name) (hP : ∀ m ∈ a, P m)
    (happ : Applies n r (a.lookup r.name).isSome out) :
    Tidy (fun m => P m ∨ m = r.name) out.1 (a.after r out.2) := by
  cases happ with
  | update n' hknown hrules hkept =>
    intro q hq hPq
    rw [hrules] at hq
    obtain ⟨p, hp, rfl⟩ := List.mem_map.mp hq
    dsimp only at hPq ⊢
    by_cases hsame : p.name = r.name ∧ p.dir = r.dir
    · rw [if_pos hsame]
      refine .inr ⟨hsame.2.trans (hdir.trans (congrArg dirOf hsame.1).symm), ?_⟩
      dsimp only
      rw [hsame.1]
      exact AList.lookup_insert a
    · rw [if_neg hsame] at hPq ⊢
      have hPp : P p.name := by
        rcases hPq with hPq | hname
        · exact hPq
        · rw [hname]
          exact hP _ (AList.lookup_isSome.mp hknown)
      rw [hkept]
      rcases h p hp hPp with hkept' | ⟨hpdir, hlookup⟩
      · exact .inl hkept'
      · have hne : p.name ≠ r.name := fun hname =>
          hsame ⟨hname, hpdir.trans ((congrArg dirOf hname).trans hdir.symm)⟩
        rw [lookup_after_ne _ hne]
        exact .inr ⟨hpdir, hlookup⟩
  | recreate d n' hd hrules hkept =>
    intro q hq hPq
    rw [hrules] at hq
    rcases List.mem_append.mp hq with hq | hq
    · rw [hkept]
      exact h.deleted hd (fun m hm => lookup_after_ne true hm) q hq hPq
    · rw [List.mem_singleton.mp hq]
      exact .inr ⟨hdir, AList.lookup_insert a⟩
  | fail d n' hd hrules hkept =>
    intro q hq hPq
    rw [hrules] at hq
    rw [hkept]
    exact h.deleted hd (fun m hm => lookup_after_ne false hm) q hq hPq

end group

end steps

/-! ### The loops -/

/-- What holds of the variables of `syncRules` once the groups `done` are through. -/
structure SyncInv (P : List Char → Prop) (done : List GroupedRule) (st : Sync) : Prop where
  mirror : Mirror st.netsh st.applied
  tidy : Tidy (fun m => P m ∨ m ∈ done.map (·.name)) st.netsh st.applied
  known : ∀ m ∈ st.applied, P m ∨ m ∈ done.map (·.name)
  covered : ∀ r ∈ done, st.applied.lookup r.name = some r.ipList ∨ ∀ ip ∈ r.entries, ip ∈ st.unapplied
  complete : st.firstErr = none → ∀ r ∈ done, st.applied.lookup r.name = some r.ipList

section loops
variable {env : NetshEnv} {P : List Char → Prop} {done todo : List GroupedRule} {st : Sync} {r : GroupedRule}

theorem syncInv_group (h : SyncInv P done st) (hdir : r.dir = dirOf r.name)
    (hnew : r.name ∉ done.map (·.name)) : SyncInv P (done ++ [r]) (syncGroup env st r) := by
  have hnames : ∀ m, (m ∈ (done ++ [r]).map (·.name)) ↔ m ∈ done.map (·.name) ∨ m = r.name := by
    intro m
    rw [List.map_append, List.mem_append, List.map_singleton, List.mem_singleton]
  have hne : ∀ q ∈ done, q.name ≠ r.name := fun q hq heq => hnew (heq ▸ List.mem_map_of_mem hq)
  unfold syncGroup
  split
  · rename_i hsame
    have hmem : r.name ∈ st.applied := AList.lookup_isSome.mp (by rw [hsame]; rfl)
    refine ⟨h.mirror, h.tidy.mono fun m hm => ?_, fun m hm => ?_, fun q hq => ?_, fun hnone q hq => ?_⟩
    · rcases hm with hm | hm
      · exact .inl hm
      · rcases (hnames m).mp hm with hm | rfl
        · exact .inr hm
        · exact h.known _ hmem
    · exact (h.known m hm).imp_right fun hm => (hnames m).mpr (.inl hm)
    · rcases List.mem_append.mp hq with hq | hq
      · exact h.covered q hq
      · rw [List.mem_singleton.mp hq]
        exact .inl hsame
    · rcases List.mem_append.mp hq with hq | hq
      · exact h.complete hnone q hq
      · rw [List.mem_singleton.mp hq]
        exact hsame
  · have happ := applies_applyGroupedRule env st.netsh r (st.applied.lookup r.name).isSome
    have hmirror := h.mirror.applied hdir happ
    have htidy := (h.tidy.applied hdir h.known happ).mono
      (Q := fun m => P m ∨ m ∈ (done ++ [r]).map (·.name)) fun m hm => by
        rw [hnames m] at hm
        exact or_assoc.mpr hm
    generalize applyGroupedRule env st.netsh r (st.applied.lookup r.name).isSome = out at hmirror htidy
    obtain ⟨n, ok⟩ := out
    cases ok with
    | true =>
      refine ⟨hmirror, htidy, fun m hm => ?_, fun q hq => ?_, fun hnone q hq => ?_⟩
      · rw [hnames m]
        rcases (AList.mem_insert st.applied).mp hm with rfl | hm
        · exact .inr (.inr rfl)
        · exact (h.known m hm).imp_right .inl
      · rcases List.mem_append.mp hq with hq | hq
        · exact (h.covered q hq).imp_left (AList.lookup_insert_ne (hne q hq)).trans
        · rw [List.mem_singleton.mp hq]
          exact .inl (AList.lookup_insert st.applied)
      · rcases List.mem_append.mp hq with hq | hq
        · exact (AList.lookup_insert_ne (hne q hq)).trans (h.complete hnone q hq)
        · rw [List.mem_singleton.mp hq]
          exact AList.lookup_insert st.applied
    | false =>
      refine ⟨hmirror, htidy, fun m hm => ?_, fun q hq => ?_, fun hnone q hq => ?_⟩
      · rw [hnames m]
        exact (h.known m (AList.mem_erase.mp hm).2).imp_right .inl
      · rcases List.mem_append.mp hq with hq | hq
        · exact (h.covered q hq).imp (AList.lookup_erase_ne (hne q hq)).trans
            fun hun ip hip => List.mem_append_left _ (hun ip hip)
        · rw [List.mem_singleton.mp hq]
          exact .inr fun ip hip => List.mem_append_right _ hip
      · have hfirst : st.firstErr.or (some r.name) = none := hnone
        rw [Option.or_eq_none_iff] at hfirst
        exact absurd hfirst.2 nofun

theorem syncInv_groups (h : SyncInv P done st) (hdir : ∀ r ∈ todo, r.dir = dirOf r.name)
    (hnodup : ((done ++ todo).map (·.name)).Nodup) :
    SyncInv P (done ++ todo) (todo.foldl (syncGroup env) st) := by
  induction todo generalizing done st with
  | nil => rwa [List.append_nil]
  | cons r todo ih =>
    have hassoc : done ++ r :: todo = (done ++ [r]) ++ todo := by
      rw [List.append_assoc, List.singleton_append]
    have hnew : r.name ∉ done.map (·.name) := by
      rw [List.map_append, List.map_cons] at hnodup
      exact fun hmem => (List.nodup_append.mp hnodup).2.2 _ hmem _ List.mem_cons_self rfl
    obtain ⟨hr, hrest⟩ := List.forall_mem_cons.mp hdir
    rw [hassoc] at hnodup ⊢
    exact ih (syncInv_group h hr hnew) hrest hnodup

/-- What holds of the variables once the groups `names` of the mirror were looked at. -/
structure DropInv (P : List Char → Prop) (want : List (List Char)) (st₀ : Sync) (names : List (List Char))
    (st : Sync) : Prop where
  mirror : Mirror st.netsh st.applied
  tidy : Tidy P st.netsh st.applied
  wanted : ∀ m ∈ want, st.applied.lookup m = st₀.applied.lookup m
  unwanted : ∀ m ∈ st.applied, m ∈ st₀.applied ∧ (m ∈ names → m ∈ want)
  unapplied : st.unapplied = st₀.unapplied
  firstErr : st.firstErr = st₀.firstErr

theorem dropInv_group {want names : List (List Char)} {st₀ : Sync} (h : DropInv P want st₀ names st)
    (name : List Char) : DropInv P want st₀ (names ++ [name]) (dropGroup env want st name) := by
  unfold dropGroup
  split
  · rename_i hwant
    refine ⟨h.mirror, h.tidy, h.wanted, fun m hm => ⟨(h.unwanted m hm).1, fun hmem => ?_⟩, h.unapplied,
      h.firstErr⟩
    rcases List.mem_append.mp hmem with hmem | hmem
    · exact (h.unwanted m hm).2 hmem
    · rw [List.mem_singleton.mp hmem]
      exact hwant
  · rename_i hwant
    have hd := @deleted_delete env st.netsh name
    refine ⟨h.mirror.deleted hd fun m l => lookup_erase_eq_some,
      (h.tidy.deleted hd fun m hm => AList.lookup_erase_ne hm).mono fun m hm => .inl hm, fun m hm => ?_,
      fun m hm => ?_, h.unapplied, h.firstErr⟩
    · have hne : m ≠ name := fun heq => hwant (heq ▸ hm)
      exact (AList.lookup_erase_ne hne).trans (h.wanted m hm)
    · obtain ⟨hne, hm⟩ := AList.mem_erase.mp hm
      refine ⟨(h.unwanted m hm).1, fun hmem => (h.unwanted m hm).2 ?_⟩
      exact (List.mem_append.mp hmem).resolve_right fun heq => hne (List.mem_singleton.mp heq)

theorem dropInv_groups {want names todo : List (List Char)} {st₀ : Sync} (h : DropInv P want st₀ names st) :
    DropInv P want st₀ (names ++ todo) (todo.foldl (dropGroup env want) st) := by
  induction todo generalizing names st with
  | nil => rwa [List.append_nil]
  | cons name todo ih =>
    have hassoc : names ++ name :: todo = (names ++ [name]) ++ todo := by
      rw [List.append_assoc, List.singleton_append]
    rw [List.foldl_cons, hassoc]
    exact ih (dropInv_group h name)

end loops

/-! ## `syncRules` -/

/-- The mirror after a sync with the list `ips`, which returns `err`. -/
structure Synced (P : List Char → Prop) (ips : List String) (n : Netsh) (a : AppliedRules)
    (unapplied : List String) (err : Option NetshError) : Prop where
  mirror : Mirror n a
  tidy : Tidy (fun m => P m ∨ m ∈ (desiredGroupedRules ips).map (·.name)) n a
  wanted : ∀ m ∈ a, m ∈ (desiredGroupedRules ips).map (·.name)
  covered : ∀ r ∈ desiredGroupedRules ips, a.lookup r.name = some r.ipList ∨ ∀ ip ∈ r.entries, ip ∈ unapplied
  complete : err = none → ∀ r ∈ desiredGroupedRules ips, a.lookup r.name = some r.ipList

section sync
variable {env : NetshEnv} {P : List Char → Prop} {ips : List String} {n : Netsh} {a : AppliedRules}
  {unapplied : List String} {err : Option NetshError}

/-- A command that deletes a group that is not one of the mirror's. -/
theorem Synced.delete (h : Synced P ips n a unapplied err) {name : List Char} (hname : name ∉ a) :
    Synced (fun m => P m ∨ m = name) ips (n.delete env name).1 a unapplied err := by
  refine ⟨h.mirror.deleted deleted_delete fun m l hm => ⟨fun heq => hname ?_, hm⟩,
    (h.tidy.deleted deleted_delete fun _ _ => rfl).mono fun m hm => ?_, h.wanted, h.covered, h.complete⟩
  · rw [← heq]
    exact AList.lookup_isSome.mp (by rw [hm]; rfl)
  · exact or_right_comm.mp hm

theorem Synced.mono {Q : List Char → Prop} (h : Synced P ips n a unapplied err) (hPQ : ∀ m, Q m → P m) :
    Synced Q ips n a unapplied err :=
  ⟨h.mirror, h.tidy.mono fun m => Or.imp_left (hPQ m), h.wanted, h.covered, h.complete⟩

theorem Synced.deleteBase (h : Synced P ips n a unapplied err)
    (hgroups : (slices maxIPsPerRule ips).length ≠ 1) :
    Synced P ips (((n.delete env winRuleIn).1).delete env winRuleOut).1 a unapplied err := by
  obtain ⟨hin, hout⟩ := base_not_mem hgroups
  exact ((h.delete fun hmem => hin (h.wanted _ hmem)).delete fun hmem => hout (h.wanted _ hmem)).mono
    fun m hm => .inl (.inl hm)

end sync

theorem synced_syncRules {env : NetshEnv} {P : List Char → Prop} {f : WindowsFirewall} (ips : List String)
    (hmirror : Mirror f.netsh (f.appliedRules.getD ∅)) (htidy : Tidy P f.netsh (f.appliedRules.getD ∅))
    (hP : ∀ m ∈ f.appliedRules.getD ∅, P m) :
    ∃ a, (f.syncRules env ips).1.appliedRules = some a ∧
      Synced P ips (f.syncRules env ips).1.netsh a (f.syncRules env ips).1.unapplied
        (f.syncRules env ips).2 := by
  have hinit : SyncInv P [] ⟨f.netsh, f.appliedRules.getD ∅, [], 0, none⟩ := by
    refine ⟨hmirror, htidy.mono fun m hm => ?_, fun m hm => .inl (hP m hm), nofun, fun _ => nofun⟩
    exact hm.resolve_right List.not_mem_nil
  have hgroups := @syncInv_groups env P [] (desiredGroupedRules ips) _ hinit
    (fun r hr => dir_of_mem_desired hr) (nodup_desired ips)
  rw [List.nil_append] at hgroups
  unfold WindowsFirewall.syncRules
  dsimp only
  generalize (desiredGroupedRules ips).foldl (syncGroup env)
    ⟨f.netsh, f.appliedRules.getD ∅, [], 0, none⟩ = st at hgroups
  have hdrop : DropInv (fun m => P m ∨ m ∈ (desiredGroupedRules ips).map (·.name))
      ((desiredGroupedRules ips).map (·.name)) st [] st :=
    ⟨hgroups.mirror, hgroups.tidy, fun _ _ => rfl, fun m hm => ⟨hm, nofun⟩, rfl, rfl⟩
  replace hdrop := @dropInv_groups env _ _ _ [] (env.order st.netsh.ran st.applied.keys) _ hdrop
  rw [List.nil_append] at hdrop
  have hkeys : ∀ m, m ∈ env.order st.netsh.ran st.applied.keys ↔ m ∈ st.applied := fun m =>
    (env.perm _ _).mem_iff.trans AList.mem_keys.symm
  generalize (env.order st.netsh.ran st.applied.keys).foldl
    (dropGroup env ((desiredGroupedRules ips).map (·.name))) st = st' at hdrop
  have hlookup : ∀ r ∈ desiredGroupedRules ips, st'.applied.lookup r.name = st.applied.lookup r.name :=
    fun r hr => hdrop.wanted _ (List.mem_map_of_mem hr)
  refine ⟨st'.applied, rfl, ?_⟩
  have hsynced : Synced P ips st'.netsh st'.applied st'.unapplied
      (st'.firstErr.map (NetshError.notApplied st'.failed)) := by
    refine ⟨hdrop.mirror, hdrop.tidy, fun m hm => ?_, fun r hr => ?_, fun hnone r hr => ?_⟩
    · obtain ⟨hold, hwant⟩ := hdrop.unwanted m hm
      exact hwant ((hkeys m).mpr hold)
    · rw [hlookup r hr, hdrop.unapplied]
      exact hgroups.covered r hr
    · rw [hlookup r hr]
      rw [hdrop.firstErr, Option.map_eq_none_iff] at hnone
      exact hgroups.complete hnone r hr
  split
  · rename_i hbase
    rw [length_desired] at hbase
    exact hsynced.deleteBase (by omega)
  · exact hsynced

/-! ## The clean-up -/

section cleanup
variable {env : NetshEnv} {P : List Char → Prop} {ips : List String} {n : Netsh} {a : AppliedRules}
  {unapplied : List String} {err : Option NetshError}

theorem Synced.walk (h : Synced P ips n a unapplied err) (walk i misses : Nat)
    (hi : (slices maxIPsPerRule ips).length > 1 → (slices maxIPsPerRule ips).length < i) :
    Synced P ips (deleteNumberedRulesFrom env walk i misses n) a unapplied err := by
  induction walk generalizing i misses n with
  | zero => exact h
  | succ walk ih =>
    rw [deleteNumberedRulesFrom]
    split
    · obtain ⟨hin, hout⟩ := numbered_not_mem hi
      refine ih ?_ _ _ fun hmany => Nat.lt_succ_of_lt (hi hmany)
      exact ((h.delete fun hmem => hin (h.wanted _ hmem)).delete fun hmem => hout (h.wanted _ hmem)).mono
        fun m hm => .inl (.inl hm)
    · exact h

theorem Synced.cleanupRules (h : Synced P ips n a unapplied err) (names : List (List Char)) :
    Synced (fun m => P m ∨ m ∈ names) ips
      (names.foldl (cleanupRule env a (slices maxIPsPerRule ips).length) n) a unapplied err := by
  induction names generalizing P n with
  | nil => exact h.mono fun m hm => hm.resolve_right List.not_mem_nil
  | cons name names ih =>
    have hname : Synced (fun m => P m ∨ m = name) ips
        (cleanupRule env a (slices maxIPsPerRule ips).length n name) a unapplied err := by
      -- a rule that is left alone is one of a desired group
      have hkept : name ∈ (desiredGroupedRules ips).map (·.name) →
          Synced (fun m => P m ∨ m = name) ips n a unapplied err := by
        intro hwant
        refine ⟨h.mirror, h.tidy.mono fun m hm => ?_, h.wanted, h.covered, h.complete⟩
        rcases hm with (hm | rfl) | hm
        · exact .inl hm
        · exact .inr hwant
        · exact .inr hm
      unfold cleanupRule
      split
      · rename_i hmem
        exact hkept (h.wanted name hmem)
      · rename_i hmem
        split
        · rename_i hgroup
          exact hkept (mem_of_isDesiredGroupName (Bool.and_eq_true_iff.mp hgroup).2)
        · exact h.delete hmem
    refine (ih hname).mono fun m hm => ?_
    rw [or_assoc, ← List.mem_cons]
    exact hm

theorem Synced.cleanup (h : Synced P ips n a unapplied err) :
    Synced P ips (cleanupStaleRules env a (slices maxIPsPerRule ips).length n).1 a unapplied err := by
  unfold cleanupStaleRules Netsh.show
  have h' : Synced P ips { n with ran := n.ran + 1 } a unapplied err :=
    ⟨h.mirror, h.tidy, h.wanted, h.covered, h.complete⟩
  split
  · rename_i heq
    obtain ⟨rfl, -⟩ := Prod.mk.inj heq
    refine Synced.walk ?_ _ _ _ fun hmany => ?_
    · split
      · rename_i hzero
        exact h'.deleteBase (by omega)
      · exact h'
    · rw [if_neg (by omega)]
      exact Nat.lt_succ_self _
  · rename_i heq
    obtain ⟨rfl, -⟩ := Prod.mk.inj heq
    exact (h'.cleanupRules _).mono fun m hm => .inl hm

theorem mem_cleanupRules {names : List (List Char)} {groups : Nat} {r : Rule}
    (hr : r ∈ (names.foldl (cleanupRule env a groups) n).rules) : r ∈ n.rules := by
  induction names generalizing n with
  | nil => exact hr
  | cons name names ih =>
    have hr' := ih hr
    unfold cleanupRule at hr'
    split at hr'
    · exact hr'
    · split at hr'
      · exact hr'
      · exact deleted_delete.mem r hr'

theorem Synced.listed {G : List Char → Prop}
    (hG : ∀ rules : List Rule, ∀ r ∈ rules, G r.name → r.name ∈ parseNetshRuleNames (env.output rules))
    (h : Synced P ips n a unapplied err)
    (hlisted : (cleanupStaleRules env a (slices maxIPsPerRule ips).length n).2 = true) :
    Synced (fun m => P m ∨ G m) ips (cleanupStaleRules env a (slices maxIPsPerRule ips).length n).1 a
      unapplied err := by
  have hclean := @Synced.cleanup env _ _ _ _ _ _ h
  refine ⟨hclean.mirror, fun r hr hP => ?_, hclean.wanted, hclean.covered, hclean.complete⟩
  rcases hP with (hP | hg) | hP
  · exact hclean.tidy r hr (.inl hP)
  · unfold cleanupStaleRules Netsh.show at hr hlisted ⊢
    by_cases hfails : env.fails n.ran = true
    · rw [if_pos hfails] at hlisted
      contradiction
    · rw [if_neg hfails] at hr ⊢
      have h' : Synced P ips { n with ran := n.ran + 1 } a unapplied err :=
        ⟨h.mirror, h.tidy, h.wanted, h.covered, h.complete⟩
      have hrules : n.rules.filter (fun _ => true) = n.rules := List.filter_true n.rules
      dsimp only at hr ⊢
      have hmem := mem_cleanupRules hr
      refine (h'.cleanupRules _).tidy r hr (.inl (.inr ?_))
      rw [hrules]
      exact hG n.rules r hmem hg
  · exact hclean.tidy r hr (.inr hP)

end cleanup

end Obliguard.Agent

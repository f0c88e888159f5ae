import Mathlib.Logic.Function.Basic
import Obliguard.Base.Net

/-!
# The migration of the ipset

`ensureChain` of `agent/firewall_iptables.go` with `iptRebind`, `ensureIpsetNet` and `migrateIpsetToNet`, over the
sets of the kernel and the rules of the two chains. Each ipset command may fail, and has no effect then, but for an
`ipset restore`, which keeps the lines before the one that fails. A rule keeps the index of its set; a set that a rule
matches is neither destroyed nor renamed. What `ipset list` prints is read as the type and the members of the set.

Once the old set is destroyed, the bans are in the copies only, and the temporary set cannot take the name, as the rules
match it. `ensureChain_keeps_iff` says which failures lose a ban: no set gets the name again, or the copy back into it
lacks the entry.
-/

namespace Obliguard.Agent

/-! ## The kernel -/

inductive IpsetType
  | hashIp
  | hashNet
  | other (name : String)
deriving DecidableEq

structure KernelSet where
  index : Nat
  type : IpsetType
  members : List Net

/-- `obliguard` and `obliguard_mig`. -/
inductive SetName
  | name
  | tmp
deriving DecidableEq

/-- `OBLIGUARD` matches the source of a packet, `OBLIGUARD_OUT` its destination. -/
inductive IptChain
  | input
  | output
deriving DecidableEq

structure Netfilter where
  sets : SetName → Option KernelSet
  /-- The index of the next set. -/
  next : Nat
  /-- The indices of the sets that the rules of a chain match. -/
  rules : IptChain → List Nat
  /-- The indices of the sets that other rules match. -/
  foreign : List Nat
  /-- The chain is hooked into `INPUT` or `OUTPUT`. -/
  hooked : IptChain → Bool

namespace Netfilter

def put (k : Netfilter) (n : SetName) (s : Option KernelSet) : Netfilter :=
  { k with sets := Function.update k.sets n s }

def setRules (k : Netfilter) (c : IptChain) (rules : List Nat) : Netfilter :=
  { k with rules := Function.update k.rules c rules }

/-- A rule matches the set. -/
def Referenced (k : Netfilter) (i : Nat) : Prop := (∃ c, i ∈ k.rules c) ∨ i ∈ k.foreign

instance (k : Netfilter) (i : Nat) : Decidable (k.Referenced i) :=
  decidable_of_iff (i ∈ k.rules .input ∨ i ∈ k.rules .output ∨ i ∈ k.foreign) (by
    rw [Referenced, ← or_assoc]
    refine or_congr_left ⟨?_, ?_⟩
    · rintro (h | h)
      · exact ⟨_, h⟩
      · exact ⟨_, h⟩
    · rintro ⟨c, h⟩
      cases c with
      | input => exact .inl h
      | output => exact .inr h)

/-- `ipset create n hash:net`, with `-exist` or without. -/
def create (exist : Bool) (n : SetName) (k : Netfilter) : Option Netfilter :=
  match k.sets n with
  | none => some { k.put n (some ⟨k.next, .hashNet, []⟩) with next := k.next + 1 }
  | some s => if exist ∧ s.type = .hashNet then some k else none

/-- `ipset destroy n`. -/
def destroy (n : SetName) (k : Netfilter) : Option Netfilter :=
  match k.sets n with
  | none => none
  | some s => if k.Referenced s.index then none else some (k.put n none)

/-- `ipset rename n n'`. -/
def rename (n n' : SetName) (k : Netfilter) : Option Netfilter :=
  match k.sets n, k.sets n' with
  | some s, none => if k.Referenced s.index then none else some ((k.put n none).put n' (some s))
  | _, _ => none

/-- `ipset add n ... -exist`, of one entry or of several in one `ipset restore`. -/
def add (n : SetName) (entries : List Net) (k : Netfilter) : Option Netfilter :=
  (k.sets n).map fun s => k.put n (some { s with members := s.members ++ entries })

/-- `iptables -A`. -/
def appendRule (c : IptChain) (n : SetName) (k : Netfilter) : Option Netfilter :=
  (k.sets n).map fun s => k.setRules c (k.rules c ++ [s.index])

/-- `iptables -D`. -/
def deleteRule (c : IptChain) (n : SetName) (k : Netfilter) : Option Netfilter :=
  (k.sets n).map fun s => k.setRules c ((k.rules c).erase s.index)

/-- The packets of an address are dropped, those from it or those to it. -/
def Dropped (k : Netfilter) (c : IptChain) (a : Addr) : Prop :=
  k.hooked c = true ∧ ∃ n s, k.sets n = some s ∧ s.index ∈ k.rules c ∧ ∃ m ∈ s.members, a ∈ m

end Netfilter

/-! ## `ensureChain` -/

/-- Which ipset commands fail: the two lists, the commands of `ensureIpsetNet` and `migrateIpsetToNet` in their order
(of a batch, the number of lines before the one that fails), and the additions of single entries after a failed batch. -/
structure IpsetFailures where
  listType : Bool
  createMissing : Bool
  list : Bool
  destroyLeftover : Bool
  createTmp : Bool
  restoreTmp : Option Nat
  addTmp : Net → Bool
  destroyName : Bool
  destroyRollback : Bool
  createName : Bool
  rename : Bool
  restoreName : Option Nat
  addName : Net → Bool
  destroyTmp : Bool

/-- A command: whether it failed, and its effect. -/
def fwRun (fails : Bool) (command : Netfilter → Option Netfilter) (k : Netfilter) : Bool × Netfilter :=
  if fails then (true, k)
  else match command k with
    | none => (true, k)
    | some k' => (false, k')

/-- `iptRebind`. -/
def iptRebind (before after : SetName) (k : Netfilter) : Netfilter :=
  let k := (fwRun false (Netfilter.appendRule .input after) k).2
  let k := (fwRun false (Netfilter.appendRule .output after) k).2
  let k := (fwRun false (Netfilter.deleteRule .input before) k).2
  (fwRun false (Netfilter.deleteRule .output before) k).2

/-- `ipsetType`; `none` is the empty text. -/
def ipsetType (fails : Bool) (n : SetName) (k : Netfilter) : Option IpsetType :=
  if fails then none else (k.sets n).map (·.type)

/-- `ipsetMembers`. -/
def ipsetMembers (fails : Bool) (n : SetName) (k : Netfilter) : Option (List Net) :=
  if fails then none else (k.sets n).map (·.members)

/-- `ipset restore` of additions: the lines before the one that fails are applied. -/
def ipsetRestore (stops : Option Nat) (n : SetName) (adds : List Net) (k : Netfilter) : Bool × Netfilter :=
  match stops with
  | none => fwRun false (Netfilter.add n adds) k
  | some lines => (true, (fwRun false (Netfilter.add n (adds.take lines)) k).2)

/-- `ipsetApply`, without removals. -/
def ipsetApply (stops : Option Nat) (addFails : Net → Bool) (n : SetName) (adds : List Net) (k : Netfilter) :
    Netfilter :=
  if adds = [] then k
  else
    let (err, k') := ipsetRestore stops n adds k
    if err then adds.foldl (fun k entry => (fwRun (addFails entry) (Netfilter.add n [entry]) k).2) k' else k'

/-- `migrateIpsetToNet` once the rules match the temporary set. -/
def replaceSet (f : IpsetFailures) (members : List Net) (k : Netfilter) : Bool × Netfilter :=
  let (err, k) := fwRun f.destroyName (Netfilter.destroy .name) k
  if err then
    let k := iptRebind .tmp .name k
    (true, (fwRun f.destroyRollback (Netfilter.destroy .tmp) k).2)
  else
    let (err, k) := fwRun f.createName (Netfilter.create false .name) k
    if err then fwRun f.rename (Netfilter.rename .tmp .name) k
    else
      let k := ipsetApply f.restoreName f.addName .name members k
      let k := iptRebind .tmp .name k
      (false, (fwRun f.destroyTmp (Netfilter.destroy .tmp) k).2)

/-- `migrateIpsetToNet`: whether it failed. -/
def migrateIpsetToNet (f : IpsetFailures) (k : Netfilter) : Bool × Netfilter :=
  match ipsetMembers f.list .name k with
  | none => (true, k)
  | some members =>
    let k := (fwRun f.destroyLeftover (Netfilter.destroy .tmp) k).2
    let (err, k) := fwRun f.createTmp (Netfilter.create false .tmp) k
    if err then (true, k)
    else
      let k := ipsetApply f.restoreTmp f.addTmp .tmp members k
      let k := iptRebind .name .tmp k
      replaceSet f members k

/-- `ensureIpsetNet`. -/
def ensureIpsetNet (f : IpsetFailures) (k : Netfilter) : Bool × Netfilter :=
  match ipsetType f.listType .name k with
  | some .hashNet => (true, k)
  | none =>
    let (err, k) := fwRun f.createMissing (Netfilter.create true .name) k
    (!err, k)
  | some _ =>
    let (err, k) := migrateIpsetToNet f k
    (!err, k)

/-- The fields of the backend that `ensureChain` sets. -/
structure IptablesFirewall where
  initialized : Bool
  hasIpset : Bool
  cidrOK : Bool

/-- `ensureChain`. -/
def ensureChain (haveIpset : Bool) (f : IpsetFailures) (fw : IptablesFirewall) (k : Netfilter) :
    IptablesFirewall × Netfilter :=
  if fw.initialized then (fw, k)
  else
    let k : Netfilter := { k with hooked := fun _ => true }
    if haveIpset then
      let (cidrOK, k) := ensureIpsetNet f k
      let k := { k with rules := fun _ => [] }
      let k := (fwRun false (Netfilter.appendRule .input .name) k).2
      let k := (fwRun false (Netfilter.appendRule .output .name) k).2
      (⟨true, true, cidrOK⟩, k)
    else (⟨true, false, true⟩, k)

/-! ## What the commands do -/

namespace Netfilter
variable {k k' : Netfilter} {n n' : SetName} {c : IptChain} {s : KernelSet}

@[simp] theorem sets_put_self (k : Netfilter) (n : SetName) (o : Option KernelSet) : (k.put n o).sets n = o := by
  simp only [put, Function.update_self]

theorem sets_put_of_ne (h : n' ≠ n) (k : Netfilter) (o : Option KernelSet) : (k.put n o).sets n' = k.sets n' := by
  simp only [put, Function.update_of_ne h]

/-- The indices of the sets are below the next one, and no two sets share one. -/
structure Wf (k : Netfilter) : Prop where
  below : ∀ n s, k.sets n = some s → s.index < k.next
  distinct : ∀ n n' s s', k.sets n = some s → k.sets n' = some s' → s.index = s'.index → n = n'

theorem Wf.put (h : Wf k) {o : Option KernelSet} (ho : ∀ s ∈ o, ∃ s', k.sets n = some s' ∧ s'.index = s.index) :
    Wf (k.put n o) := by
  have hold : ∀ m s, (k.put n o).sets m = some s → ∃ s', k.sets m = some s' ∧ s'.index = s.index := by
    intro m s hs
    by_cases hm : m = n
    · subst hm
      rw [sets_put_self] at hs
      exact ho s hs
    · rw [sets_put_of_ne hm] at hs
      exact ⟨s, hs, rfl⟩
  constructor
  · intro m s hs
    obtain ⟨s', hs', heq⟩ := hold m s hs
    rw [← heq]
    exact h.below m s' hs'
  · intro m m' s t hs ht heq
    obtain ⟨s', hs', hs''⟩ := hold m s hs
    obtain ⟨t', ht', ht''⟩ := hold m' t ht
    exact h.distinct m m' s' t' hs' ht' (by rw [hs'', ht'', heq])

theorem Wf.setRules (h : Wf k) (c : IptChain) (rules : List Nat) : Wf (k.setRules c rules) := ⟨h.below, h.distinct⟩

theorem Wf.create {exist : Bool} (h : Wf k) (hk : Netfilter.create exist n k = some k') : Wf k' := by
  unfold Netfilter.create at hk
  split at hk
  · rename_i hnone
    obtain rfl := Option.some.inj hk
    have hnew : ∀ m s, (k.put n (some ⟨k.next, .hashNet, []⟩)).sets m = some s →
        m = n ∧ s.index = k.next ∨ m ≠ n ∧ k.sets m = some s := by
      intro m s hs
      by_cases hm : m = n
      · subst hm
        rw [sets_put_self] at hs
        rw [← Option.some.inj hs]
        exact .inl ⟨rfl, rfl⟩
      · rw [sets_put_of_ne hm] at hs
        exact .inr ⟨hm, hs⟩
    constructor
    · intro m s hs
      rcases hnew m s hs with ⟨-, heq⟩ | ⟨-, hs⟩
      · rw [heq]
        exact Nat.lt_succ_self k.next
      · exact Nat.lt_succ_of_lt (h.below m s hs)
    · intro m m' s t hs ht heq
      rcases hnew m s hs with ⟨hm, hs⟩ | ⟨-, hs⟩ <;> rcases hnew m' t ht with ⟨hm', ht⟩ | ⟨-, ht⟩
      · rw [hm, hm']
      · exact absurd (h.below m' t ht) (by omega)
      · exact absurd (h.below m s hs) (by omega)
      · exact h.distinct m m' s t hs ht heq
  · split at hk
    · rw [← Option.some.inj hk]
      exact h
    · contradiction

theorem Wf.destroy (h : Wf k) (hk : Netfilter.destroy n k = some k') : Wf k' := by
  unfold Netfilter.destroy at hk
  split at hk
  · contradiction
  · split at hk
    · contradiction
    · rw [← Option.some.inj hk]
      exact h.put fun s hs => by contradiction

theorem Wf.rename (h : Wf k) (hk : Netfilter.rename n n' k = some k') : Wf k' := by
  unfold Netfilter.rename at hk
  split at hk
  · rename_i s hs hnone
    obtain ⟨-, hk⟩ := Option.ite_none_left_eq_some.mp hk
    obtain rfl := Option.some.inj hk
    have hne : n ≠ n' := by
      rintro rfl
      rw [hs] at hnone
      contradiction
    have hold : ∀ m t, ((k.put n none).put n' (some s)).sets m = some t →
        m = n' ∧ t = s ∨ m ≠ n' ∧ m ≠ n ∧ k.sets m = some t := by
      intro m t ht
      by_cases hm : m = n'
      · subst hm
        rw [sets_put_self] at ht
        exact .inl ⟨rfl, (Option.some.inj ht).symm⟩
      · rw [sets_put_of_ne hm] at ht
        by_cases hm' : m = n
        · subst hm'
          rw [sets_put_self] at ht
          contradiction
        · rw [sets_put_of_ne hm'] at ht
          exact .inr ⟨hm, hm', ht⟩
    constructor
    · intro m t ht
      rcases hold m t ht with ⟨-, heq⟩ | ⟨-, -, ht⟩
      · rw [heq]
        exact h.below n s hs
      · exact h.below m t ht
    · intro m m' t u ht hu heq
      rcases hold m t ht with ⟨hm, hts⟩ | ⟨-, hm, ht⟩ <;> rcases hold m' u hu with ⟨hm', hus⟩ | ⟨-, hm', hu⟩
      · rw [hm, hm']
      · rw [hts] at heq
        exact absurd (h.distinct n m' s u hs hu heq).symm hm'
      · rw [hus] at heq
        exact absurd (h.distinct m n t s ht hs heq) hm
      · exact h.distinct m m' t u ht hu heq
  · contradiction

theorem Wf.add {entries : List Net} (h : Wf k) (hk : Netfilter.add n entries k = some k') : Wf k' := by
  obtain ⟨s, hs, rfl⟩ := Option.map_eq_some_iff.mp hk
  refine h.put fun t ht => ⟨s, hs, ?_⟩
  rw [← Option.some.inj ht]

theorem Wf.appendRule (h : Wf k) (hk : Netfilter.appendRule c n k = some k') : Wf k' := by
  obtain ⟨s, -, rfl⟩ := Option.map_eq_some_iff.mp hk
  exact h.setRules c _

theorem Wf.deleteRule (h : Wf k) (hk : Netfilter.deleteRule c n k = some k') : Wf k' := by
  obtain ⟨s, -, rfl⟩ := Option.map_eq_some_iff.mp hk
  exact h.setRules c _

end Netfilter

open Netfilter
variable {k : Netfilter} {f : IpsetFailures} {s : KernelSet}

/-! ## What no command breaks -/

/-- No command breaks `P`. -/
structure Preserved (P : Netfilter → Prop) : Prop where
  create : ∀ exist n k k', P k → Netfilter.create exist n k = some k' → P k'
  destroy : ∀ n k k', P k → Netfilter.destroy n k = some k' → P k'
  rename : ∀ n n' k k', P k → Netfilter.rename n n' k = some k' → P k'
  add : ∀ n entries k k', P k → Netfilter.add n entries k = some k' → P k'
  appendRule : ∀ c n k k', P k → Netfilter.appendRule c n k = some k' → P k'
  deleteRule : ∀ c n k k', P k → Netfilter.deleteRule c n k = some k' → P k'

namespace Preserved
variable {P : Netfilter → Prop}

theorem fwRun {command : Netfilter → Option Netfilter} (hcommand : ∀ k k', P k → command k = some k' → P k')
    (fails : Bool) (h : P k) : P (Agent.fwRun fails command k).2 := by
  unfold Agent.fwRun
  split
  · exact h
  · split
    · exact h
    · rename_i k' hk'
      exact hcommand k k' h hk'

theorem iptRebind (hP : Preserved P) (n n' : SetName) (h : P k) : P (Agent.iptRebind n n' k) := by
  unfold Agent.iptRebind
  have hinput := fwRun (hP.appendRule .input n') false h
  have houtput := fwRun (hP.appendRule .output n') false hinput
  exact fwRun (hP.deleteRule .output n) false (fwRun (hP.deleteRule .input n) false houtput)

theorem ipsetRestore (hP : Preserved P) (stops : Option Nat) (n : SetName) (adds : List Net) (h : P k) :
    P (Agent.ipsetRestore stops n adds k).2 := by
  cases stops with
  | none => exact fwRun (hP.add n adds) false h
  | some lines => exact fwRun (hP.add n (adds.take lines)) false h

theorem ipsetApply (hP : Preserved P) (stops : Option Nat) (addFails : Net → Bool) (n : SetName) (adds : List Net)
    (h : P k) : P (Agent.ipsetApply stops addFails n adds k) := by
  unfold Agent.ipsetApply
  split
  · exact h
  · have hbatch := hP.ipsetRestore stops n adds h
    generalize Agent.ipsetRestore stops n adds k = x at hbatch
    dsimp only
    split
    · exact List.foldlRecOn adds _ hbatch fun k hk entry _ => fwRun (hP.add n [entry]) (addFails entry) hk
    · exact hbatch

theorem replaceSet (hP : Preserved P) (f : IpsetFailures) (members : List Net) (h : P k) :
    P (Agent.replaceSet f members k).2 := by
  unfold Agent.replaceSet
  have hdestroyed := fwRun (hP.destroy .name) f.destroyName h
  dsimp only
  split
  · exact fwRun (hP.destroy .tmp) f.destroyRollback (hP.iptRebind .tmp .name hdestroyed)
  · have hcreated := fwRun (hP.create false .name) f.createName hdestroyed
    split
    · exact fwRun (hP.rename .tmp .name) f.rename hcreated
    · exact fwRun (hP.destroy .tmp) f.destroyTmp
        (hP.iptRebind .tmp .name (hP.ipsetApply f.restoreName f.addName .name members hcreated))

theorem migrateIpsetToNet (hP : Preserved P) (f : IpsetFailures) (h : P k) : P (Agent.migrateIpsetToNet f k).2 := by
  unfold Agent.migrateIpsetToNet
  split
  · exact h
  · rename_i members _
    have htmp := fwRun (hP.create false .tmp) f.createTmp (fwRun (hP.destroy .tmp) f.destroyLeftover h)
    dsimp only
    split
    · exact htmp
    · exact hP.replaceSet f members (hP.iptRebind .name .tmp (hP.ipsetApply f.restoreTmp f.addTmp .tmp members htmp))

theorem ensureIpsetNet (hP : Preserved P) (f : IpsetFailures) (h : P k) : P (Agent.ensureIpsetNet f k).2 := by
  unfold Agent.ensureIpsetNet
  split
  · exact h
  · exact fwRun (hP.create true .name) f.createMissing h
  · exact hP.migrateIpsetToNet f h

end Preserved

/-! ## The copies -/

/-- What is copied into a set. -/
def copied (stops : Option Nat) (addFails : Net → Bool) (members : List Net) : List Net :=
  match stops with
  | none => members
  | some lines => members.take lines ++ members.filter fun m => !addFails m

/-- A new set of networks has the name. -/
def created (n : SetName) (k : Netfilter) : Netfilter :=
  { k with sets := Function.update k.sets n (some ⟨k.next, .hashNet, []⟩), next := k.next + 1 }

/-- What the set of the name has after the old one is destroyed; `none` where no set has the name. -/
def migrated (f : IpsetFailures) (members : List Net) : Option (List Net) :=
  if f.createName then none else some (copied f.restoreName f.addName members)

/-- The rules of `ensureChain`, added to the flushed chains. -/
def bindName (k : Netfilter) : Netfilter :=
  (fwRun false (Netfilter.appendRule .output .name)
    (fwRun false (Netfilter.appendRule .input .name) { k with rules := fun _ => [] }).2).2

/-- The rules of the chains match the set of the name, if they match one. -/
structure Starts (k : Netfilter) : Prop where
  wf : Wf k
  bound : ∀ c, ∀ i ∈ k.rules c, ∃ s, k.sets .name = some s ∧ s.index = i

/-- A set of addresses with one member, matched by both chains. -/
def hashIpHost : Netfilter :=
  { sets := Function.update (fun _ => none) .name (some ⟨0, .hashIp, [sampleHost]⟩)
    next := 1
    rules := fun _ => [0]
    foreign := []
    hooked := fun _ => true }

/-- The set is not created again after the old one is destroyed. -/
def lostName : IpsetFailures :=
  { listType := false
    createMissing := false
    list := false
    destroyLeftover := false
    createTmp := false
    restoreTmp := none
    addTmp := fun _ => false
    destroyName := false
    destroyRollback := false
    createName := true
    rename := false
    restoreName := none
    addName := fun _ => false
    destroyTmp := false }

/-- The backend before its first use. -/
def newIptables : IptablesFirewall := ⟨false, false, false⟩

theorem hashIpHost_sets {n : SetName} {s : KernelSet} (h : hashIpHost.sets n = some s) :
    n = .name ∧ s = ⟨0, .hashIp, [sampleHost]⟩ := by
  cases n with
  | name => exact ⟨rfl, (Option.some.inj h).symm⟩
  | tmp => contradiction

theorem hashIpHost_starts : Starts hashIpHost where
  wf := by
    constructor
    · intro n s hs
      rw [(hashIpHost_sets hs).2]
      exact Nat.zero_lt_one
    · intro n n' s s' hs hs' _
      rw [(hashIpHost_sets hs).1, (hashIpHost_sets hs').1]
  bound _ i hi := ⟨⟨0, .hashIp, [sampleHost]⟩, rfl, (List.mem_singleton.mp hi).symm⟩

/-- The address of the member. -/
def hashIpMember : Addr := ⟨.v4, 0xc6336407, sampleHost.addr_lt⟩

theorem hashIpHost_dropped (c : IptChain) : Dropped hashIpHost c hashIpMember :=
  ⟨rfl, .name, ⟨0, .hashIp, [sampleHost]⟩, rfl, List.mem_singleton.mpr rfl, sampleHost, List.mem_singleton.mpr rfl,
    by decide⟩

theorem ensureChain_loses_ban :
    ¬∀ (haveIpset : Bool) (f : IpsetFailures) (fw : IptablesFirewall) (k : Netfilter) (c : IptChain) (a : Addr),
      Starts k → Dropped k c a → Dropped (ensureChain haveIpset f fw k).2 c a := by
  intro h
  have hdropped := h true lostName newIptables hashIpHost .input hashIpMember hashIpHost_starts
    (hashIpHost_dropped .input)
  have hbind : (bindName (ensureIpsetNet lostName hashIpHost).2).rules .input = [] := by decide
  obtain ⟨-, n, s, hs, hrule, -⟩ := hdropped
  exact absurd (show s.index ∈ (bindName (ensureIpsetNet lostName hashIpHost).2).rules .input from hrule)
    (by rw [hbind]; exact List.not_mem_nil)

end Obliguard.Agent

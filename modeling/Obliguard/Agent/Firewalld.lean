import Mathlib.Order.CompletePartialOrder
import Obliguard.Agent.Nftables

/-!
# The firewalld backend

`FirewalldFirewall` of `agent/firewall_firewalld.go` with its two ipsets, at runtime and in the permanent
configuration: single addresses in a `hash:ip` set, networks in a `hash:net` set, which refuses an entry
that overlaps another. `init` has found both sets.

`firewalld_consistent` is the main result.
-/

namespace Obliguard.Agent

open Cover

/-! ## The ipsets -/

/-- The entries of the two ipsets of one configuration. -/
structure FwdSets where
  hosts : EntryMap
  nets : EntryMap

inductive FwdSet
  /-- `obliguard`, of type `hash:ip`. -/
  | hosts
  /-- `obliguard_net`, of type `hash:net`. -/
  | nets

/-- `--add-entry`; an entry that is there already gives a warning only. -/
def addEntry (set : FwdSet) (els : EntryMap) (ip : String) : Option EntryMap :=
  (entryOf ip).bind fun e =>
    match set with
    | .hosts => some (els.put e)
    | .nets => kernelExec els (.add e)

/-- `--remove-entry`. -/
def removeEntry (els : EntryMap) (ip : String) : EntryMap :=
  match entryOf ip with
  | some e => els.delete e
  | none => els

/-! ## The backend -/

inductive IptError
  | entry
  /-- `%s: IPv6 is not supported by this backend` -/
  | ipv6 (k : String)
  /-- `%s: CIDR needs a hash:net ipset` -/
  | cidr (k : String)

/-- `iptEntry`. -/
def iptEntry (ip : String) (cidrOK : Bool) : Except IptError String :=
  match canonicalBanEntry ip with
  | none => .error .entry
  | some (k, p) =>
    if p.family ≠ .v4 then .error (.ipv6 k)
    else if ¬ isHostEntry p ∧ ¬ cidrOK then .error (.cidr k)
    else .ok k

structure Firewalld where
  runtime : FwdSets
  permanent : FwdSets
  pendingAdd : List String
  pendingDel : List String
  coveredNets : EntryMap

def fwdBatchSize : Nat := 1000

/-- `addEntriesFromFile`: the entries of a chunk are added together or not at all. Returns what is in the
set then, and whether every chunk succeeded. -/
def addEntriesFromFile (set : FwdSet) : EntryMap → List (List String) → EntryMap × Bool
  | els, [] => (els, true)
  | els, chunk :: chunks =>
    match chunk.foldlM (addEntry set) els with
    | some els => addEntriesFromFile set els chunks
    | none => (els, false)

/-- `applyEntries`; `fromFile` is what `hasEntriesFromFile` returns. -/
def applyEntries (fromFile : Bool) (set : FwdSet) (els : EntryMap) (ips : List String) (add : Bool) :
    EntryMap :=
  if ¬ add then ips.foldl removeEntry els
  else
    let (els, done) := if fromFile then addEntriesFromFile set els (slices fwdBatchSize ips) else (els, false)
    if done then els else ips.foldl (fun els ip => (addEntry set els ip).getD els) els

/-- `splitBySet`. -/
def splitBySet (entries : List String) : List String × List String :=
  (entries.filter fun k => '/' ∉ k.toList, entries.filter fun k => '/' ∈ k.toList)

/-- `applyDelta`. -/
def applyDelta (fromFile : Bool) (s : FwdSets) (adds dels : List String) : FwdSets :=
  let (addHosts, addNets) := splitBySet adds
  let (delHosts, delNets) := splitBySet dels
  let hosts := applyEntries fromFile .hosts s.hosts addHosts true
  let hosts := applyEntries fromFile .hosts hosts delHosts false
  -- removals first: a network that retires narrower ones is refused while they are in the set
  let nets := applyEntries fromFile .nets s.nets delNets false
  let nets := applyEntries fromFile .nets nets addNets true
  ⟨hosts, nets⟩

def Firewalld.banIP (f : Firewalld) (ip : String) : Except IptError Firewalld :=
  match iptEntry ip true with
  | .error e => .error e
  | .ok k => .ok { f with pendingAdd := f.pendingAdd ++ [k] }

def Firewalld.unbanIP (f : Firewalld) (ip : String) : Except IptError Firewalld :=
  match canonicalBanEntry ip with
  | none => .error .entry
  | some (k, _) => .ok { f with pendingDel := f.pendingDel ++ [k] }

def Firewalld.call (f : Firewalld) : BanCall → Firewalld
  | .ban ip => match f.banIP ip with
    | .ok f => f
    | .error _ => f
  | .unban ip => match f.unbanIP ip with
    | .ok f => f
    | .error _ => f

/-- The network delta of a `Flush` by `planNets`, and the covered networks after it. -/
def Firewalld.planNets (r : RangeOrder) (f : Firewalld) (addNets delNets : List String) :
    List String × List String × EntryMap :=
  if addNets ≠ [] ∨ delNets ≠ [] then
    let plan := planIntervalSet r f.runtime.nets f.coveredNets addNets delNets
    -- requested removals are always sent as well
    (canonicalBanList (plan.toDel.map Entry.key ++ delNets), plan.toAdd.map Entry.key, plan.covered)
  else (delNets, addNets, f.coveredNets)

def Firewalld.flush (fromFile : Bool) (r : RangeOrder) (f : Firewalld) : Firewalld :=
  if f.pendingAdd = [] ∧ f.pendingDel = [] then f
  else
    let (addHosts, addNets) := splitBySet f.pendingAdd
    let (delHosts, delNets) := splitBySet f.pendingDel
    let (delNets, addNets, coveredNets) := f.planNets r addNets delNets
    let adds := addHosts ++ addNets
    let dels := delHosts ++ delNets
    { runtime := applyDelta fromFile f.runtime adds dels
      permanent := applyDelta fromFile f.permanent adds dels
      pendingAdd := []
      pendingDel := []
      coveredNets }

def Firewalld.getBannedIPs (r : RangeOrder) (f : Firewalld) : List String :=
  canonicalBanList (f.runtime.hosts.map Entry.key ++ reportWithCovered r f.runtime.nets f.coveredNets)

/-- `FirewalldFirewall` of a fresh process, over the sets it finds. -/
def Firewalld.start (runtime permanent : FwdSets) : Firewalld := ⟨runtime, permanent, [], [], []⟩

/-! ## Rounds -/

/-- A batch of calls and its flush. -/
structure FwdRound where
  calls : List BanCall
  order : RangeOrder

def Firewalld.round (fromFile : Bool) (f : Firewalld) (rd : FwdRound) : Firewalld :=
  (rd.calls.foldl Firewalld.call f).flush fromFile rd.order

/-- The entries that a batch bans; IPv6 is refused. -/
def FwdRound.banned (rd : FwdRound) : Set Entry :=
  {e | ∃ ip, BanCall.ban ip ∈ rd.calls ∧ entryOf ip = some e ∧ e.1.family = .v4}

def FwdRound.unbanned (rd : FwdRound) : Set Entry :=
  {e | ∃ ip, BanCall.unban ip ∈ rd.calls ∧ entryOf ip = some e}

/-- The entries requested after a batch. -/
def FwdRound.requested (R : Set Entry) (rd : FwdRound) : Set Entry :=
  {e | (e ∈ R ∧ e ∉ rd.unbanned) ∨ e ∈ rd.banned}

/-! ## The sets -/

theorem slash_mem_key (e : Entry) : '/' ∈ e.key.toList ↔ isHostEntry e.1 = false := by
  rw [e.key_eq, String.toList_ofList, Net.text, isHostEntry, decide_eq_false_iff_not]
  by_cases hhost : e.1.IsHost
  · rw [if_pos hhost]
    exact iff_of_false (slash_not_mem_text _) (not_not.mpr hhost)
  · rw [if_neg hhost]
    exact iff_of_true (List.mem_append_right _ List.mem_cons_self) hhost

theorem named_splitBySet {l : List String} (hl : ∀ s ∈ l, ∃ e : Entry, e.key = s) (e : Entry) :
    (e ∈ named (splitBySet l).1 ↔ e ∈ named l ∧ isHostEntry e.1 = true) ∧
      (e ∈ named (splitBySet l).2 ↔ e ∈ named l ∧ isHostEntry e.1 = false) := by
  have hkey : ∀ s ∈ l, entryOf s = some e → s = e.key := by
    intro s hs he
    obtain ⟨d, rfl⟩ := hl s hs
    rw [entryOf_key] at he
    rw [Option.some.inj he]
  constructor
  · constructor
    · rintro ⟨s, hs, he⟩
      obtain ⟨hs, hslash⟩ := List.mem_filter.mp hs
      rw [decide_eq_true_eq, hkey s hs he, slash_mem_key, Bool.not_eq_false] at hslash
      exact ⟨⟨s, hs, he⟩, hslash⟩
    · rintro ⟨⟨s, hs, he⟩, hhost⟩
      refine ⟨s, List.mem_filter.mpr ⟨hs, ?_⟩, he⟩
      rw [decide_eq_true_eq, hkey s hs he, slash_mem_key, Bool.not_eq_false]
      exact hhost
  · constructor
    · rintro ⟨s, hs, he⟩
      obtain ⟨hs, hslash⟩ := List.mem_filter.mp hs
      rw [decide_eq_true_eq, hkey s hs he, slash_mem_key] at hslash
      exact ⟨⟨s, hs, he⟩, hslash⟩
    · rintro ⟨⟨s, hs, he⟩, hnet⟩
      refine ⟨s, List.mem_filter.mpr ⟨hs, ?_⟩, he⟩
      rw [decide_eq_true_eq, hkey s hs he, slash_mem_key]
      exact hnet

section entries
variable {set : FwdSet} {F : Set Entry} {els : EntryMap} {fromFile : Bool} {ips : List String}

theorem mem_named_cons {ip : String} {e : Entry} :
    e ∈ named (ip :: ips) ↔ entryOf ip = some e ∨ e ∈ named ips := List.exists_mem_cons_iff ..

theorem mem_removeEntries {e : Entry} : e ∈ ips.foldl removeEntry els ↔ e ∈ els ∧ e ∉ named ips := by
  induction ips generalizing els with
  | nil => simp [named]
  | cons ip ips ih =>
    rw [List.foldl_cons, ih, mem_named_cons, removeEntry]
    cases hip : entryOf ip with
    | none => simp
    | some d =>
      simp only [EntryMap.mem_delete, Option.some.injEq]
      tauto

theorem nodup_removeEntries (h : els.Nodup) : (ips.foldl removeEntry els).Nodup := by
  induction ips generalizing els with
  | nil => exact h
  | cons ip ips ih =>
    rw [List.foldl_cons]
    refine ih ?_
    unfold removeEntry
    split
    · exact EntryMap.nodup_delete h _
    · exact h

/-- Within `F` the set refuses nothing. -/
def Accepts (set : FwdSet) (F : Set Entry) : Prop :=
  ∀ (els : EntryMap) (ip : String) (e : Entry), (∀ d ∈ els, d ∈ F) → entryOf ip = some e → e ∈ F →
    addEntry set els ip = some (els.put e)

theorem accepts_hosts : Accepts .hosts Set.univ := by
  intro els ip e _ he _
  rw [addEntry, he, Option.bind_some]

theorem accepts_nets (hF : IsAntichain (· ≤ ·) F) : Accepts .nets F := by
  intro els ip e hels he heF
  rw [addEntry, he, Option.bind_some]
  show kernelExec els (.add e) = some (els.put e)
  rw [kernelExec_add hF hels heF]
  by_cases hmem : e ∈ els <;> simp [EntryMap.put, hmem]

/-- What is in a set after entries of `F` were added to it. -/
structure AddedTo (F : Set Entry) (els : EntryMap) (S : Set Entry) (els' : EntryMap) : Prop where
  mem_iff : ∀ e, e ∈ els' ↔ e ∈ els ∨ e ∈ S
  sub : ∀ e ∈ els', e ∈ F
  nodup : els.Nodup → els'.Nodup

theorem addedTo_put {e : Entry} (hels : ∀ d ∈ els, d ∈ F) (he : e ∈ F) : AddedTo F els {e} (els.put e) := by
  refine ⟨fun d => EntryMap.mem_put, fun d hd => ?_, fun h => EntryMap.nodup_put h e⟩
  rcases EntryMap.mem_put.mp hd with hd | rfl
  · exact hels d hd
  · exact he

theorem AddedTo.trans {S T : Set Entry} {els' els'' : EntryMap} (h : AddedTo F els S els')
    (h' : AddedTo F els' T els'') : AddedTo F els (S ∪ T) els'' :=
  ⟨fun e => by rw [h'.mem_iff, h.mem_iff, Set.mem_union, or_assoc], h'.sub, fun hnd => h'.nodup (h.nodup hnd)⟩

theorem AddedTo.congr {S T : Set Entry} {els' : EntryMap} (h : AddedTo F els S els')
    (hST : ∀ e, e ∈ T ↔ e ∈ S) :
    AddedTo F els T els' :=
  ⟨fun e => (h.mem_iff e).trans (or_congr_right (hST e).symm), h.sub, h.nodup⟩

theorem addedTo_nil (hels : ∀ d ∈ els, d ∈ F) : AddedTo F els (named []) els :=
  ⟨fun e => by simp [named], hels, id⟩

theorem addedTo_foldlM (hF : Accepts set F) (hels : ∀ d ∈ els, d ∈ F)
    (hips : ∀ ip ∈ ips, ∃ e ∈ F, entryOf ip = some e) :
    ∃ els', ips.foldlM (addEntry set) els = some els' ∧ AddedTo F els (named ips) els' := by
  induction ips generalizing els with
  | nil => exact ⟨els, rfl, addedTo_nil hels⟩
  | cons ip ips ih =>
    obtain ⟨⟨e, heF, he⟩, hrest⟩ := List.forall_mem_cons.mp hips
    have hput := addedTo_put hels heF
    obtain ⟨els', hrun, hadded⟩ := ih hput.sub hrest
    refine ⟨els', ?_, (hput.trans hadded).congr fun d => ?_⟩
    · rw [List.foldlM_cons, hF els ip e hels he heF]
      exact hrun
    · rw [mem_named_cons, he, Option.some.injEq, Set.mem_union, Set.mem_singleton_iff, eq_comm]

theorem addedTo_fromFile (chunks : List (List String)) (hF : Accepts set F) (hels : ∀ d ∈ els, d ∈ F)
    (hips : ∀ chunk ∈ chunks, ∀ ip ∈ chunk, ∃ e ∈ F, entryOf ip = some e) :
    ∃ els', addEntriesFromFile set els chunks = (els', true) ∧ AddedTo F els (named chunks.flatten) els' := by
  induction chunks generalizing els with
  | nil => exact ⟨els, rfl, addedTo_nil hels⟩
  | cons chunk chunks ih =>
    obtain ⟨hchunk, hrest⟩ := List.forall_mem_cons.mp hips
    obtain ⟨mid, hmid, hadded⟩ := addedTo_foldlM hF hels hchunk
    obtain ⟨els', hrun, hadded'⟩ := ih hadded.sub hrest
    refine ⟨els', ?_, (hadded.trans hadded').congr fun e => ?_⟩
    · rw [addEntriesFromFile, hmid]
      exact hrun
    · simp only [named, List.flatten_cons, List.mem_append, Set.mem_ofPred_eq, Set.mem_union, or_and_right,
        exists_or]

theorem addedTo_foldl (hF : Accepts set F) (hels : ∀ d ∈ els, d ∈ F)
    (hips : ∀ ip ∈ ips, ∃ e ∈ F, entryOf ip = some e) :
    AddedTo F els (named ips) (ips.foldl (fun els ip => (addEntry set els ip).getD els) els) := by
  induction ips generalizing els with
  | nil => exact addedTo_nil hels
  | cons ip ips ih =>
    obtain ⟨⟨e, heF, he⟩, hrest⟩ := List.forall_mem_cons.mp hips
    have hput := addedTo_put hels heF
    rw [List.foldl_cons, hF els ip e hels he heF, Option.getD_some]
    refine (hput.trans (ih hput.sub hrest)).congr fun d => ?_
    rw [mem_named_cons, he, Option.some.injEq, Set.mem_union, Set.mem_singleton_iff, eq_comm]

theorem addedTo_applyEntries (hF : Accepts set F) (hels : ∀ d ∈ els, d ∈ F)
    (hips : ∀ ip ∈ ips, ∃ e ∈ F, entryOf ip = some e) :
    AddedTo F els (named ips) (applyEntries fromFile set els ips true) := by
  unfold applyEntries
  rw [if_neg (not_not.mpr rfl)]
  cases fromFile with
  | false => exact addedTo_foldl hF hels hips
  | true =>
    have hslices : ∀ ip, (∃ chunk ∈ slices fwdBatchSize ips, ip ∈ chunk) ↔ ip ∈ ips := fun ip =>
      mem_slices (by decide)
    obtain ⟨els', hrun, hadded⟩ := addedTo_fromFile (slices fwdBatchSize ips) hF hels
      fun chunk hchunk ip hip => hips ip ((hslices ip).mp ⟨chunk, hchunk, hip⟩)
    simp only [if_true, hrun]
    refine hadded.congr fun e => ?_
    simp only [named, List.mem_flatten, hslices, Set.mem_ofPred_eq]

end entries

/-! ## A flush -/

/-- Between two batches, the entries requested being `R`. -/
structure Firewalld.Settled (f : Firewalld) (R : Set Entry) : Prop where
  hosts : ∀ e, e ∈ f.runtime.hosts ↔ e ∈ R ∧ isHostEntry e.1 = true
  nets : ∀ e, (e ∈ f.runtime.nets ∨ e ∈ f.coveredNets) ↔ e ∈ R ∧ isHostEntry e.1 = false
  covers : Covers {e | e ∈ f.runtime.nets} {e | e ∈ f.coveredNets}
  permanentHosts : ∀ e, e ∈ f.permanent.hosts ↔ e ∈ f.runtime.hosts
  permanentNets : ∀ e, e ∈ f.permanent.nets ↔ e ∈ f.runtime.nets
  nodup : f.runtime.nets.Nodup
  permanentNodup : f.permanent.nets.Nodup

section delta
variable {fromFile : Bool} {s : FwdSets} {adds dels : List String}

theorem mem_hosts_applyDelta (hadds : ∀ ip ∈ (splitBySet adds).1, ∃ e : Entry, e.key = ip) (e : Entry) :
    e ∈ (applyDelta fromFile s adds dels).hosts ↔
      (e ∈ s.hosts ∨ e ∈ named (splitBySet adds).1) ∧ e ∉ named (splitBySet dels).1 := by
  have hips : ∀ ip ∈ (splitBySet adds).1, ∃ e ∈ (Set.univ : Set Entry), entryOf ip = some e := by
    intro ip hip
    obtain ⟨e, rfl⟩ := hadds ip hip
    exact ⟨e, trivial, entryOf_key e⟩
  have hadded := @addedTo_applyEntries _ _ s.hosts fromFile _ accepts_hosts (fun _ _ => trivial) hips
  exact mem_removeEntries.trans (and_congr_left fun _ => hadded.mem_iff e)

theorem nets_applyDelta {F : Set Entry} (hF : IsAntichain (· ≤ ·) F)
    (hkept : ∀ e ∈ s.nets, e ∉ named (splitBySet dels).2 → e ∈ F)
    (hadds : ∀ ip ∈ (splitBySet adds).2, ∃ e ∈ F, entryOf ip = some e) (hnd : s.nets.Nodup) :
    (applyDelta fromFile s adds dels).nets.Nodup ∧ ∀ e, e ∈ (applyDelta fromFile s adds dels).nets ↔
      (e ∈ s.nets ∧ e ∉ named (splitBySet dels).2) ∨ e ∈ named (splitBySet adds).2 := by
  have hsub : ∀ e ∈ (splitBySet dels).2.foldl removeEntry s.nets, e ∈ F := by
    intro e he
    rw [mem_removeEntries] at he
    exact hkept e he.1 he.2
  have hadded := @addedTo_applyEntries _ _ _ fromFile _ (accepts_nets hF) hsub hadds
  refine ⟨hadded.nodup (nodup_removeEntries hnd), fun e => ?_⟩
  refine (hadded.mem_iff e).trans (or_congr_left ?_)
  exact mem_removeEntries

end delta

section lists
variable {l l' : List String}

theorem mem_named_append {e : Entry} : e ∈ named (l ++ l') ↔ e ∈ named l ∨ e ∈ named l' := by
  simp only [named, List.mem_append, Set.mem_ofPred_eq, or_and_right, exists_or]

theorem banListKey_key (e : Entry) : banListKey e.key = some e.key := by
  rw [banListKey, canonicalBanEntry_key]

theorem mem_named_keys {e : Entry} (hl : ∀ s ∈ l, ∃ e : Entry, e.key = s) : e ∈ named l ↔ e.key ∈ l := by
  constructor
  · rintro ⟨s, hs, he⟩
    obtain ⟨d, rfl⟩ := hl s hs
    rw [entryOf_key] at he
    exact Option.some.inj he ▸ hs
  · exact fun he => ⟨e.key, he, entryOf_key e⟩

theorem mem_canonicalBanList_keys {s : String} (hl : ∀ s ∈ l, ∃ e : Entry, e.key = s) :
    s ∈ canonicalBanList l ↔ s ∈ l := by
  rw [mem_canonicalBanList]
  constructor
  · rintro ⟨t, ht, hs⟩
    obtain ⟨e, rfl⟩ := hl t ht
    rw [banListKey_key] at hs
    exact Option.some.inj hs ▸ ht
  · intro hs
    obtain ⟨e, rfl⟩ := hl s hs
    exact ⟨e.key, hs, banListKey_key e⟩

end lists

/-- The lists that a batch of calls queues. -/
structure Queue (calls : List BanCall) (adds dels : List String) : Prop where
  adds_key : ∀ s ∈ adds, ∃ e : Entry, e.key = s
  dels_key : ∀ s ∈ dels, ∃ e : Entry, e.key = s
  mem_adds : ∀ e, e ∈ named adds ↔ ∃ ip, BanCall.ban ip ∈ calls ∧ entryOf ip = some e ∧ e.1.family = .v4
  mem_dels : ∀ e, e ∈ named dels ↔ ∃ ip, BanCall.unban ip ∈ calls ∧ entryOf ip = some e

theorem canonicalBanEntry_entryOf (s : String) :
    canonicalBanEntry s = (entryOf s).map fun e => (e.key, e.1) := by
  cases hcanon : canonicalBanEntry s with
  | some kp =>
    obtain ⟨k, p⟩ := kp
    have hkey : k = String.ofList p.text := by
      rw [canonicalBanEntry_eq] at hcanon
      obtain ⟨n, -, hn⟩ := Option.map_eq_some_iff.mp hcanon
      obtain ⟨rfl, rfl⟩ := Prod.mk.inj hn
      rfl
    rw [entryOf_eq_some hcanon, Option.map_some, Entry.key_eq]
    exact congrArg (fun t => some (t, p)) hkey
  | none =>
    unfold entryOf
    split
    · rename_i h
      rw [hcanon] at h
      contradiction
    · rfl

theorem call_queue (c : BanCall) : ∃ adds dels, Queue [c] adds dels ∧ ∀ f : Firewalld,
    f.call c = { f with pendingAdd := f.pendingAdd ++ adds, pendingDel := f.pendingDel ++ dels } := by
  have hnil : ∀ s ∈ ([] : List String), ∃ e : Entry, e.key = s := by simp
  have hsingle : ∀ d : Entry, ∀ s ∈ [d.key], ∃ e : Entry, e.key = s := fun d s hs =>
    ⟨d, (List.mem_singleton.mp hs).symm⟩
  have hnamed : ∀ d e : Entry, e ∈ named [d.key] ↔ d = e := by
    intro d e
    simp [named, entryOf_key, eq_comm]
  cases c with
  | ban ip =>
    cases he : entryOf ip with
    | none =>
      refine ⟨[], [], ⟨hnil, hnil, fun e => ?_, fun e => ?_⟩, fun f => ?_⟩
      · simp [named, he]
      · simp [named]
      · simp [Firewalld.call, Firewalld.banIP, iptEntry, canonicalBanEntry_entryOf, he]
    | some d =>
      by_cases hfam : d.1.family = .v4
      · refine ⟨[d.key], [], ⟨hsingle d, hnil, fun e => ?_, fun e => ?_⟩, fun f => ?_⟩
        · rw [hnamed]
          constructor
          · rintro rfl
            exact ⟨ip, List.mem_singleton_self _, he, hfam⟩
          · rintro ⟨ip', hip, he', -⟩
            obtain rfl : ip' = ip := by simpa using hip
            exact Option.some.inj (he.symm.trans he')
        · simp [named]
        · simp [Firewalld.call, Firewalld.banIP, iptEntry, canonicalBanEntry_entryOf, he, hfam]
      · refine ⟨[], [], ⟨hnil, hnil, fun e => ?_, fun e => ?_⟩, fun f => ?_⟩
        · refine iff_of_false (by simp [named]) ?_
          rintro ⟨ip', hip, he', hfam'⟩
          obtain rfl : ip' = ip := by simpa using hip
          obtain rfl : d = e := Option.some.inj (he.symm.trans he')
          exact hfam hfam'
        · simp [named]
        · simp [Firewalld.call, Firewalld.banIP, iptEntry, canonicalBanEntry_entryOf, he, hfam]
  | unban ip =>
    cases he : entryOf ip with
    | none =>
      refine ⟨[], [], ⟨hnil, hnil, fun e => ?_, fun e => ?_⟩, fun f => ?_⟩
      · simp [named]
      · simp [named, he]
      · simp [Firewalld.call, Firewalld.unbanIP, canonicalBanEntry_entryOf, he]
    | some d =>
      refine ⟨[], [d.key], ⟨hnil, hsingle d, fun e => ?_, fun e => ?_⟩, fun f => ?_⟩
      · simp [named]
      · rw [hnamed]
        simp [he]
      · simp [Firewalld.call, Firewalld.unbanIP, canonicalBanEntry_entryOf, he]

theorem calls_queue (calls : List BanCall) : ∃ adds dels, Queue calls adds dels ∧ ∀ f : Firewalld,
    calls.foldl Firewalld.call f =
      { f with pendingAdd := f.pendingAdd ++ adds, pendingDel := f.pendingDel ++ dels } := by
  induction calls with
  | nil => exact ⟨[], [], ⟨by simp, by simp, by simp [named], by simp [named]⟩, by simp⟩
  | cons c calls ih =>
    obtain ⟨adds, dels, hq, hcall⟩ := call_queue c
    obtain ⟨adds', dels', hq', hcalls⟩ := ih
    refine ⟨adds ++ adds', dels ++ dels', ⟨fun s hs => ?_, fun s hs => ?_, fun e => ?_, fun e => ?_⟩,
      fun f => ?_⟩
    · exact (List.mem_append.mp hs).elim (hq.adds_key s) (hq'.adds_key s)
    · exact (List.mem_append.mp hs).elim (hq.dels_key s) (hq'.dels_key s)
    · rw [mem_named_append, hq.mem_adds, hq'.mem_adds, ← exists_or]
      refine exists_congr fun ip => ?_
      rw [List.mem_singleton, List.mem_cons, or_and_right]
    · rw [mem_named_append, hq.mem_dels, hq'.mem_dels, ← exists_or]
      refine exists_congr fun ip => ?_
      rw [List.mem_singleton, List.mem_cons, or_and_right]
    · rw [List.foldl_cons, hcall, hcalls]
      simp only [List.append_assoc]

theorem splitBySet_parts {hosts nets : List String} (hhosts : ∀ s ∈ hosts, '/' ∉ s.toList)
    (hnets : ∀ s ∈ nets, '/' ∈ s.toList) : splitBySet (hosts ++ nets) = (hosts, nets) := by
  have h1 : hosts.filter (fun k => '/' ∉ k.toList) = hosts :=
    List.filter_eq_self.mpr fun s hs => decide_eq_true (hhosts s hs)
  have h2 : nets.filter (fun k => '/' ∉ k.toList) = [] :=
    List.filter_eq_nil_iff.mpr fun s hs h => of_decide_eq_true h (hnets s hs)
  have h3 : hosts.filter (fun k => '/' ∈ k.toList) = [] :=
    List.filter_eq_nil_iff.mpr fun s hs h => hhosts s hs (of_decide_eq_true h)
  have h4 : nets.filter (fun k => '/' ∈ k.toList) = nets :=
    List.filter_eq_self.mpr fun s hs => decide_eq_true (hnets s hs)
  rw [splitBySet, List.filter_append, List.filter_append, h1, h2, h3, h4, List.append_nil,
    List.nil_append]

theorem mem_splitBySet {l : List String} {s : String} :
    (s ∈ (splitBySet l).1 → s ∈ l ∧ '/' ∉ s.toList) ∧ (s ∈ (splitBySet l).2 → s ∈ l ∧ '/' ∈ s.toList) := by
  simp [splitBySet]

/-! ## A flush keeps both copies settled -/

theorem Firewalld.Settled.congr {f : Firewalld} {R R' : Set Entry} (h : f.Settled R)
    (hR : ∀ e, e ∈ R' ↔ e ∈ R) : f.Settled R' := by
  rw [Set.ext hR]
  exact h

/-- A network delta that turns the network set into `P`, over the covered entries `cov`. -/
structure NetPlan (f : Firewalld) (R : Set Entry) (P : Set Entry) (delNets addNets : List String)
    (cov : EntryMap) : Prop where
  covers : Covers P {e | e ∈ cov}
  all_iff : ∀ e, (e ∈ P ∨ e ∈ cov) ↔ e ∈ R ∧ isHostEntry e.1 = false
  mem_iff : ∀ e, e ∈ P ↔ (e ∈ f.runtime.nets ∧ e ∉ named delNets) ∨ e ∈ named addNets
  dels : ∀ s ∈ delNets, ∃ e : Entry, e.key = s ∧ isHostEntry e.1 = false
  adds : ∀ s ∈ addNets, ∃ e : Entry, e.key = s ∧ isHostEntry e.1 = false

section flush
variable {fromFile : Bool} {r : RangeOrder} {f : Firewalld} {R : Set Entry} {adds dels : List String}

/-- What is requested once the lists are applied. -/
def requestedAfter (R : Set Entry) (adds dels : List String) : Set Entry :=
  {e | (e ∈ R ∧ e ∉ named dels) ∨ e ∈ named adds}

theorem splitBySet_nets_key (hl : ∀ s ∈ adds, ∃ e : Entry, e.key = s) :
    ∀ s ∈ (splitBySet adds).2, ∃ e : Entry, e.key = s ∧ isHostEntry e.1 = false := by
  intro s hs
  obtain ⟨hs, hslash⟩ := mem_splitBySet.2 hs
  obtain ⟨e, rfl⟩ := hl s hs
  exact ⟨e, rfl, (slash_mem_key e).mp hslash⟩

theorem netPlan_planNets (h : f.Settled R) (hadds : ∀ s ∈ adds, ∃ e : Entry, e.key = s)
    (hdels : ∀ s ∈ dels, ∃ e : Entry, e.key = s) (hdisj : ∀ e, e ∈ named adds → e ∉ named dels) :
    ∃ P, NetPlan f (requestedAfter R adds dels) P
      (f.planNets r (splitBySet adds).2 (splitBySet dels).2).1
      (f.planNets r (splitBySet adds).2 (splitBySet dels).2).2.1
      (f.planNets r (splitBySet adds).2 (splitBySet dels).2).2.2 := by
  have hA := fun e => (named_splitBySet hadds e).2
  have hD := fun e => (named_splitBySet hdels e).2
  have hAkey := splitBySet_nets_key hadds
  have hDkey := splitBySet_nets_key hdels
  generalize (splitBySet adds).2 = addNets at hA hAkey
  generalize (splitBySet dels).2 = delNets at hD hDkey
  unfold Firewalld.planNets
  split
  · have hspec := planIntervalSet_spec r h.covers h.nodup addNets delNets
    generalize planIntervalSet r f.runtime.nets f.coveredNets addNets delNets = plan at hspec
    have hnet : ∀ e, e ∈ plan.pres ∨ e ∈ plan.covered → isHostEntry e.1 = false := by
      intro e he
      rcases (hspec.all_iff e).mp he with ⟨he, -⟩ | he
      · exact ((h.nets e).mp he).2
      · exact ((hA e).mp he).2
    have hkeys : ∀ s ∈ plan.toDel.map Entry.key ++ delNets,
        ∃ e : Entry, e.key = s ∧ isHostEntry e.1 = false := by
      intro s hs
      rcases List.mem_append.mp hs with hs | hs
      · obtain ⟨e, he, rfl⟩ := List.mem_map.mp hs
        exact ⟨e, rfl, ((h.nets e).mp (Or.inl (hspec.toDel_sub e he))).2⟩
      · exact hDkey s hs
    have hkeys' : ∀ s ∈ plan.toDel.map Entry.key ++ delNets, ∃ e : Entry, e.key = s := fun s hs =>
      (hkeys s hs).imp fun _ he => he.1
    have hcanon := fun s => @mem_canonicalBanList_keys _ s hkeys'
    refine ⟨{e | e ∈ plan.pres}, hspec.covers, fun e => ?_, fun e => ?_, fun s hs => ?_, fun s hs => ?_⟩
    · refine (hspec.all_iff e).trans ?_
      simp only [requestedAfter, Set.mem_ofPred_eq, h.nets, hA, hD]
      tauto
    · have hdel : e ∈ named (canonicalBanList (plan.toDel.map Entry.key ++ delNets)) ↔
          e ∈ plan.toDel ∨ e ∈ named delNets := by
        rw [mem_named_keys fun s hs => hkeys' s ((hcanon s).mp hs), hcanon, ← mem_named_keys hkeys',
          mem_named_append, mem_named_key]
      rw [hdel, mem_named_key]
      refine (hspec.pres_iff e).trans (or_congr_left ?_)
      refine and_congr_right fun hpres => ⟨fun hkept => ?_, fun hkept => hkept ∘ Or.inl⟩
      -- what is still there was not asked to go
      rintro (hdel | hdel)
      · exact hkept hdel
      · rcases (hspec.all_iff e).mp (Or.inl ((hspec.pres_iff e).mpr (Or.inl ⟨hpres, hkept⟩))) with he | he
        · exact he.2 hdel
        · exact hdisj e ((hA e).mp he).1 ((hD e).mp hdel).1
    · exact hkeys s ((hcanon s).mp hs)
    · obtain ⟨e, he, rfl⟩ := List.mem_map.mp hs
      exact ⟨e, rfl, hnet e (Or.inl ((hspec.pres_iff e).mpr (Or.inr he)))⟩
  · rename_i hnil
    obtain ⟨rfl, rfl⟩ : addNets = [] ∧ delNets = [] := by
      rw [not_or, not_not, not_not] at hnil
      exact hnil
    have hnone : ∀ e : Entry, e ∉ named ([] : List String) := by simp [named]
    refine ⟨{e | e ∈ f.runtime.nets}, h.covers, fun e => ?_, fun e => ?_, hDkey, hAkey⟩
    · refine (h.nets e).trans ?_
      have hA := (hA e).not.mp (hnone e)
      have hD := (hD e).not.mp (hnone e)
      simp only [requestedAfter, Set.mem_ofPred_eq]
      tauto
    · simp [hnone]

theorem splitBySet_hosts_nets (l : List String) {nets : List String}
    (hnets : ∀ s ∈ nets, ∃ e : Entry, e.key = s ∧ isHostEntry e.1 = false) :
    splitBySet ((splitBySet l).1 ++ nets) = ((splitBySet l).1, nets) := by
  refine splitBySet_parts (fun s hs => (mem_splitBySet.1 hs).2) fun s hs => ?_
  obtain ⟨e, rfl, hnet⟩ := hnets s hs
  exact (slash_mem_key e).mpr hnet

variable {s : FwdSets} {P : Set Entry} {addNets delNets : List String} {cov : EntryMap}

theorem nets_planned (hplan : NetPlan f R P delNets addNets cov)
    (hs : ∀ e, e ∈ s.nets ↔ e ∈ f.runtime.nets) (hnd : s.nets.Nodup) :
    (applyDelta fromFile s ((splitBySet adds).1 ++ addNets) ((splitBySet dels).1 ++ delNets)).nets.Nodup ∧
      ∀ e, e ∈ (applyDelta fromFile s ((splitBySet adds).1 ++ addNets)
        ((splitBySet dels).1 ++ delNets)).nets ↔ e ∈ P := by
  have hadds := splitBySet_hosts_nets adds hplan.adds
  have hdels := splitBySet_hosts_nets dels hplan.dels
  have hkept : ∀ e ∈ s.nets, e ∉ named (splitBySet ((splitBySet dels).1 ++ delNets)).2 → e ∈ P := by
    intro e he hdel
    rw [hdels] at hdel
    exact (hplan.mem_iff e).mpr (Or.inl ⟨(hs e).mp he, hdel⟩)
  have haccept : ∀ ip ∈ (splitBySet ((splitBySet adds).1 ++ addNets)).2, ∃ e ∈ P, entryOf ip = some e := by
    rw [hadds]
    intro ip hip
    obtain ⟨e, rfl, -⟩ := hplan.adds ip hip
    exact ⟨e, (hplan.mem_iff e).mpr (Or.inr ⟨e.key, hip, entryOf_key e⟩), entryOf_key e⟩
  have hnets := @nets_applyDelta fromFile _ _ _ _ hplan.covers.antichain hkept haccept hnd
  refine ⟨hnets.1, fun e => ?_⟩
  rw [hnets.2, hadds, hdels, hplan.mem_iff, hs]

theorem hosts_planned (hplan : NetPlan f (requestedAfter R adds dels) P delNets addNets cov)
    (hs : ∀ e, e ∈ s.hosts ↔ e ∈ R ∧ isHostEntry e.1 = true)
    (hadds : ∀ s ∈ adds, ∃ e : Entry, e.key = s) (hdels : ∀ s ∈ dels, ∃ e : Entry, e.key = s)
    (hdisj : ∀ e, e ∈ named adds → e ∉ named dels) (e : Entry) :
    e ∈ (applyDelta fromFile s ((splitBySet adds).1 ++ addNets) ((splitBySet dels).1 ++ delNets)).hosts ↔
      e ∈ requestedAfter R adds dels ∧ isHostEntry e.1 = true := by
  have hsplit := splitBySet_hosts_nets adds hplan.adds
  have hkeys : ∀ ip ∈ (splitBySet ((splitBySet adds).1 ++ addNets)).1, ∃ e : Entry, e.key = ip := by
    rw [hsplit]
    exact fun ip hip => hadds ip (mem_splitBySet.1 hip).1
  rw [mem_hosts_applyDelta hkeys, hsplit, splitBySet_hosts_nets dels hplan.dels, hs,
    (named_splitBySet hadds e).1, (named_splitBySet hdels e).1]
  have hdisj := hdisj e
  simp only [requestedAfter, Set.mem_ofPred_eq]
  tauto

theorem flush_queued (h : f.Settled R) (hadds : ∀ s ∈ adds, ∃ e : Entry, e.key = s)
    (hdels : ∀ s ∈ dels, ∃ e : Entry, e.key = s) (hdisj : ∀ e, e ∈ named adds → e ∉ named dels) :
    let f' := Firewalld.flush fromFile r { f with pendingAdd := adds, pendingDel := dels }
    f'.Settled (requestedAfter R adds dels) ∧ f'.pendingAdd = [] ∧ f'.pendingDel = [] := by
  intro f'
  by_cases hnil : adds = [] ∧ dels = []
  · obtain ⟨rfl, rfl⟩ := hnil
    have hf' : f' = { f with pendingAdd := [], pendingDel := [] } := if_pos ⟨rfl, rfl⟩
    rw [hf']
    refine ⟨?_, rfl, rfl⟩
    refine Firewalld.Settled.congr ⟨h.hosts, h.nets, h.covers, h.permanentHosts, h.permanentNets, h.nodup,
      h.permanentNodup⟩ fun e => ?_
    simp [requestedAfter, named]
  · obtain ⟨P, hplan⟩ := netPlan_planNets (r := r) h hadds hdels hdisj
    have hf' : f' = { f with
        runtime := applyDelta fromFile f.runtime
          ((splitBySet adds).1 ++ (f.planNets r (splitBySet adds).2 (splitBySet dels).2).2.1)
          ((splitBySet dels).1 ++ (f.planNets r (splitBySet adds).2 (splitBySet dels).2).1)
        permanent := applyDelta fromFile f.permanent
          ((splitBySet adds).1 ++ (f.planNets r (splitBySet adds).2 (splitBySet dels).2).2.1)
          ((splitBySet dels).1 ++ (f.planNets r (splitBySet adds).2 (splitBySet dels).2).1)
        pendingAdd := []
        pendingDel := []
        coveredNets := (f.planNets r (splitBySet adds).2 (splitBySet dels).2).2.2 } := if_neg hnil
    generalize f.planNets r (splitBySet adds).2 (splitBySet dels).2 = plan at hplan hf'
    obtain ⟨hnd, hnets⟩ := @nets_planned fromFile _ _ adds dels _ _ _ _ _ hplan (fun _ => Iff.rfl) h.nodup
    obtain ⟨hndP, hnetsP⟩ := @nets_planned fromFile _ _ adds dels _ _ _ _ _ hplan h.permanentNets
      h.permanentNodup
    have hhosts := @hosts_planned fromFile _ _ _ _ _ _ _ _ _ hplan h.hosts hadds hdels hdisj
    have hhostsP := @hosts_planned fromFile _ _ _ _ _ _ _ _ _ hplan
      (fun e => (h.permanentHosts e).trans (h.hosts e)) hadds hdels hdisj
    rw [hf']
    refine ⟨⟨hhosts, fun e => ?_, ?_, fun e => (hhostsP e).trans (hhosts e).symm,
      fun e => (hnetsP e).trans (hnets e).symm, hnd, hndP⟩, rfl, rfl⟩
    · exact (or_congr_left (hnets e)).trans (hplan.all_iff e)
    · convert hplan.covers using 1
      ext e
      exact hnets e

end flush

/-! ## Runs -/

def Firewalld.run (fromFile : Bool) (f : Firewalld) (rds : List FwdRound) : Firewalld :=
  rds.foldl (Firewalld.round fromFile) f

section runs
variable {fromFile : Bool}

theorem round_queued {f : Firewalld} {R : Set Entry} {rd : FwdRound} (h : f.Settled R)
    (hadd : f.pendingAdd = []) (hdel : f.pendingDel = []) (hrd : Disjoint rd.banned rd.unbanned) :
    (f.round fromFile rd).Settled (rd.requested R) ∧ (f.round fromFile rd).pendingAdd = [] ∧
      (f.round fromFile rd).pendingDel = [] := by
  obtain ⟨adds, dels, hq, hcalls⟩ := calls_queue rd.calls
  have hbanned : ∀ e, e ∈ named adds ↔ e ∈ rd.banned := hq.mem_adds
  have hunbanned : ∀ e, e ∈ named dels ↔ e ∈ rd.unbanned := hq.mem_dels
  have hdisj : ∀ e, e ∈ named adds → e ∉ named dels := fun e he he' =>
    Set.disjoint_left.mp hrd ((hbanned e).mp he) ((hunbanned e).mp he')
  have hflush := @flush_queued fromFile rd.order _ _ _ _ h hq.adds_key hq.dels_key hdisj
  rw [Firewalld.round, hcalls, hadd, hdel, List.nil_append, List.nil_append]
  refine ⟨hflush.1.congr fun e => ?_, hflush.2⟩
  simp only [FwdRound.requested, requestedAfter, Set.mem_ofPred_eq, hbanned, hunbanned]

theorem settled_start {runtime permanent : FwdSets}
    (hhosts : ∀ e, e ∈ permanent.hosts ↔ e ∈ runtime.hosts)
    (hnets : ∀ e, e ∈ permanent.nets ↔ e ∈ runtime.nets)
    (hover : runtime.nets.Pairwise fun a b => ¬ a.1.Overlaps b.1)
    (hover' : permanent.nets.Pairwise fun a b => ¬ a.1.Overlaps b.1)
    (hhost : ∀ e ∈ runtime.hosts, isHostEntry e.1 = true)
    (hnet : ∀ e ∈ runtime.nets, isHostEntry e.1 = false) :
    (Firewalld.start runtime permanent).Settled {e | e ∈ runtime.hosts ∨ e ∈ runtime.nets} := by
  refine ⟨fun e => ?_, fun e => ?_,
    ⟨antichain_of_not_overlaps (f := Subtype.val) (fun _ _ h => h) hover, fun e he => ?_⟩, hhosts, hnets,
    nodup_of_not_overlaps hover, nodup_of_not_overlaps hover'⟩
  · show e ∈ runtime.hosts ↔ (e ∈ runtime.hosts ∨ e ∈ runtime.nets) ∧ _
    constructor
    · exact fun he => ⟨Or.inl he, hhost e he⟩
    · rintro ⟨he | he, hhost⟩
      · exact he
      · exact absurd hhost (by simp [hnet e he])
  · show e ∈ runtime.nets ∨ e ∈ [] ↔ (e ∈ runtime.hosts ∨ e ∈ runtime.nets) ∧ _
    constructor
    · rintro (he | he)
      · exact ⟨Or.inr he, hnet e he⟩
      · exact absurd he List.not_mem_nil
    · rintro ⟨he | he, hnet⟩
      · exact absurd hnet (by simp [hhost e he])
      · exact Or.inl he
  · exact absurd he List.not_mem_nil

theorem run_queued {runtime permanent : FwdSets}
    (hstart : (Firewalld.start runtime permanent).Settled {e | e ∈ runtime.hosts ∨ e ∈ runtime.nets})
    (rds : List FwdRound) (hrds : ∀ rd ∈ rds, Disjoint rd.banned rd.unbanned) :
    let f := (Firewalld.start runtime permanent).run fromFile rds
    f.Settled (rds.foldl FwdRound.requested {e | e ∈ runtime.hosts ∨ e ∈ runtime.nets}) ∧
      f.pendingAdd = [] ∧ f.pendingDel = [] := by
  induction rds using List.reverseRecOn with
  | nil => exact ⟨hstart, rfl, rfl⟩
  | append_singleton rds rd ih =>
    obtain ⟨hset, hadd, hdel⟩ := ih fun rd hrd => hrds rd (List.mem_append_left _ hrd)
    have hrd := hrds rd (List.mem_append_right _ (List.mem_singleton_self rd))
    simp only [Firewalld.run, List.foldl_append, List.foldl_cons, List.foldl_nil]
    exact round_queued hset hadd hdel hrd

/-- Both configurations hold the requested entries `R`. -/
structure Firewalld.Consistent (f : Firewalld) (R : Set Entry) : Prop where
  hosts_eq : ∀ e, e ∈ f.permanent.hosts ↔ e ∈ f.runtime.hosts
  nets_eq : ∀ e, e ∈ f.permanent.nets ↔ e ∈ f.runtime.nets
  overlap_free : f.runtime.nets.Pairwise fun a b => ¬ a.1.Overlaps b.1
  maximal : ∀ e, e ∈ f.runtime.nets ↔ Maximal (fun e => e ∈ R ∧ isHostEntry e.1 = false) e
  report : ∀ r s, s ∈ f.getBannedIPs r ↔ ∃ e ∈ R, e.key = s

theorem Firewalld.Settled.consistent {f : Firewalld} {R : Set Entry} (h : f.Settled R) : f.Consistent R := by
  refine ⟨h.permanentHosts, h.permanentNets,
    pairwise_not_overlaps (f := Subtype.val) (fun _ _ h => h) h.nodup h.covers.antichain,
    fun e => ?_, fun r s => ?_⟩
  · simp only [← h.nets]
    exact h.covers.maximal_iff.symm
  · have hreport := fun s => @mem_reportWithCovered r _ _ h.covers s
    have hkeys : ∀ s ∈ f.runtime.hosts.map Entry.key ++ reportWithCovered r f.runtime.nets f.coveredNets,
        ∃ e : Entry, e.key = s := by
      intro s hs
      rcases List.mem_append.mp hs with hs | hs
      · exact (List.mem_map.mp hs).imp fun _ he => he.2
      · exact ((hreport s).mp hs).imp fun _ he => he.2
    rw [Firewalld.getBannedIPs, mem_canonicalBanList_keys hkeys, List.mem_append, List.mem_map, hreport,
      ← exists_or]
    refine exists_congr fun e => ?_
    rw [← or_and_right, h.hosts, h.nets, ← and_or_left]
    exact and_congr_left fun _ => and_iff_left (Bool.eq_false_or_eq_true _)

/-- From sets that are equal in both configurations and free of overlaps, the host set holding addresses
and the network set networks, whatever the batches: after each flush they are again, the network set holds
the maximal requested networks, and the report is what is requested. -/
theorem firewalld_consistent (fromFile : Bool) (runtime permanent : FwdSets)
    (hhosts : ∀ e, e ∈ permanent.hosts ↔ e ∈ runtime.hosts)
    (hnets : ∀ e, e ∈ permanent.nets ↔ e ∈ runtime.nets)
    (hover : runtime.nets.Pairwise fun a b => ¬ a.1.Overlaps b.1)
    (hover' : permanent.nets.Pairwise fun a b => ¬ a.1.Overlaps b.1)
    (hhost : ∀ e ∈ runtime.hosts, isHostEntry e.1 = true)
    (hnet : ∀ e ∈ runtime.nets, isHostEntry e.1 = false)
    (rds : List FwdRound) (hrds : ∀ rd ∈ rds, Disjoint rd.banned rd.unbanned) :
    ((Firewalld.start runtime permanent).run fromFile rds).Consistent
      (rds.foldl FwdRound.requested {e | e ∈ runtime.hosts ∨ e ∈ runtime.nets}) :=
  (run_queued (settled_start hhosts hnets hover hover' hhost hnet) rds hrds).1.consistent

/-- `firewalld_consistent` on a network that swallows another and is then lifted. -/
theorem firewalld_consistent_nested :
    let addr : Entry := ⟨Net.ofAddr .v4 0x01020304 32 (by decide) (by decide), by decide⟩
    let net : Entry := ⟨Net.ofAddr .v4 0x0A010000 16 (by decide) (by decide), by decide⟩
    let sets : FwdSets := ⟨[addr], [net]⟩
    let rds : List FwdRound := [⟨[.ban "10.0.0.0/8"], .asListed⟩,
      ⟨[.unban "10.0.0.0/8", .unban "1.2.3.4"], .asListed⟩]
    ((Firewalld.start sets sets).run true rds).runtime.nets = [net] ∧
      ((Firewalld.start sets sets).run true rds).Consistent
        (rds.foldl FwdRound.requested {e | e ∈ sets.hosts ∨ e ∈ sets.nets}) := by
  intro addr net sets rds
  refine ⟨by decide +kernel, firewalld_consistent true sets sets (fun _ => Iff.rfl) (fun _ => Iff.rfl)
    (by decide) (by decide) (by decide) (by decide) rds ?_⟩
  intro rd hrd
  rw [Set.disjoint_left]
  rintro e ⟨ip, hip, -⟩ ⟨ip', hip', -⟩
  rcases List.mem_pair.mp hrd with rfl | rfl
  · simp at hip'
  · simp at hip

/-- A network set that starts with a single address refuses the network around it. -/
theorem firewalld_refuses_network :
    let addr : Entry := ⟨Net.ofAddr .v4 0x01020304 32 (by decide) (by decide), by decide⟩
    let sets : FwdSets := ⟨[], [addr]⟩
    let rd : FwdRound := ⟨[.ban "1.2.3.0/24"], .asListed⟩
    (sets.nets.Pairwise fun a b => ¬ a.1.Overlaps b.1) ∧ Disjoint rd.banned rd.unbanned ∧
      ¬ ((Firewalld.start sets sets).run true [rd]).Consistent
        (rd.requested {e | e ∈ sets.hosts ∨ e ∈ sets.nets}) := by
  intro addr sets rd
  have hbanned : ∀ ip, BanCall.ban ip ∈ rd.calls → ip = "1.2.3.0/24" := by
    intro ip hip
    simpa [rd] using hip
  refine ⟨by decide, ?_, fun h => ?_⟩
  · rw [Set.disjoint_left]
    rintro e - ⟨ip, hip, -⟩
    simp [rd] at hip
  · let net : Entry := ⟨Net.ofAddr .v4 0x01020300 24 (by decide) (by decide), by decide⟩
    have hread : entryOf "1.2.3.0/24" = some net := by decide +kernel
    have hmax : Maximal (fun e => e ∈ rd.requested {e | e ∈ sets.hosts ∨ e ∈ sets.nets} ∧
        isHostEntry e.1 = false) net := by
      refine ⟨⟨Or.inr ⟨_, List.mem_singleton_self _, hread, by decide⟩, by decide⟩, ?_⟩
      rintro e ⟨⟨he | he, -⟩ | ⟨ip, hip, he, -⟩, hnet⟩ -
      · exact absurd he List.not_mem_nil
      · rw [List.mem_singleton.mp he] at hnet
        exact absurd hnet (by decide)
      · rw [hbanned ip hip, hread] at he
        exact (Option.some.inj he).ge
    have hpresent := (h.maximal net).mpr hmax
    exact absurd hpresent (by decide +kernel)

end runs

end Obliguard.Agent

import Mathlib.Data.List.Pairwise
import Obliguard.Agent.IntervalSet

/-!
# The nftables backend

`NftablesFirewall` of `agent/firewall_nftables.go` over a model of the kernel: the elements of the
two interval sets (any networks, an element belongs to the set of its family) and the set of agents
up to 1.8.55, if it still exists. A script is one transaction. The kernel refuses to delete an
element that is absent and to add one that overlaps another; when it refuses a script, the elements
are applied one by one.

`nftRun_refines` is the refinement: from sets of canonical entries, after every flush the kernel sets
hold the maximal entries of what was asked for, and the report is what was asked for. An IPv4-mapped
element is read as the IPv4 network, which the kernel does not match (`nftRun_mapped`).
-/

namespace Obliguard.Agent

open Cover

/-! ## The kernel -/

section kernel
variable {α : Type} [DecidableEq α] [PartialOrder α] [DecidableLE α]

/-- One element statement. -/
inductive NftCmd (α : Type)
  | delete (e : α)
  | add (e : α)

/-- Two elements share an address. -/
def overlapping (d e : α) : Bool := decide (d ≤ e) || decide (e ≤ d)

/-- One statement, `none` when the kernel refuses it. -/
def kernelExec (els : List α) : NftCmd α → Option (List α)
  | .delete e => if e ∈ els then some (els.filter (· ≠ e)) else none
  | .add e =>
    if e ∈ els then some els
    else if els.any (overlapping e) then none
    else some (els ++ [e])

/-- A script: all statements or none. -/
def kernelScript (els : List α) (cmds : List (NftCmd α)) : Option (List α) := cmds.foldlM kernelExec els

/-- One element retried alone, with the count of failures. -/
def applyOne (s : List α × Nat) (c : NftCmd α) : List α × Nat :=
  match kernelExec s.1 c with
  | some els => (els, s.2)
  | none => (s.1, s.2 + 1)

end kernel

/-! ## The backend -/

/-- `NftablesFirewall` with the kernel tables it works on. -/
structure Nft where
  initialized : Bool
  pendingAdd : List String
  pendingDel : List String
  covered : EntryMap
  legacy : Bool
  /-- The elements of the two interval sets. -/
  elements : List Net
  /-- The set of agents up to 1.8.55. -/
  legacySet : Option (List Entry)

/-- `nftElementScript` builds one transaction: deletions first, then additions, grouped per set. -/
def nftElementScript (toDel toAdd : List Entry) : List (NftCmd Net) :=
  let bySet (keys : List Entry) :=
    ((keys.filter fun p => p.1.family = .v4) ++ (keys.filter fun p => p.1.family = .v6)).map (·.1)
  (bySet toDel).map .delete ++ (bySet toAdd).map .add

/-- `listPresent` returns the elements of both interval sets, each as `canonicalBanEntry` reads its
text. -/
def listPresent (els : List Net) : EntryMap :=
  els.foldl (fun present n => match entryOf (banEntryKey n) with
    | some e => present.put e
    | none => present) []

/-- `apply` runs the planned changes as one atomic script; when the kernel refuses it, each element
is retried alone. Returns the new elements and the number of elements that failed. -/
def nftApply (els : List Net) (toDel toAdd : List Entry) : List Net × Nat :=
  if toDel = [] ∧ toAdd = [] then (els, 0)
  else
    match kernelScript els (nftElementScript toDel toAdd) with
    | some els => (els, 0)
    | none => (toDel.map (NftCmd.delete ·.1) ++ toAdd.map (NftCmd.add ·.1)).foldl applyOne (els, 0)

/-- `migrateLegacy` copies the pre-interval set into the interval sets and deletes it; a failed
element keeps it. -/
def Nft.migrateLegacy (r : RangeOrder) (st : Nft) (legacyEntries : List Entry) : Nft :=
  let plan := planIntervalSet r (listPresent st.elements) st.covered (legacyEntries.map Entry.key) []
  let (els, failed) := nftApply st.elements plan.toDel plan.toAdd
  let st := if legacyEntries = [] then st else { st with covered := plan.covered, elements := els }
  if legacyEntries ≠ [] ∧ failed > 0 then st else { st with legacy := false, legacySet := none }

/-- `ensureTable` creates the table, sets and chains (idempotent). -/
def Nft.ensureTable (r : RangeOrder) (st : Nft) : Nft :=
  if st.initialized then st
  else
    let st := { st with initialized := true, legacy := st.legacySet.isSome }
    match st.legacySet with
    | some legacyEntries => st.migrateLegacy r legacyEntries
    | none => st

def Nft.banIP (r : RangeOrder) (st : Nft) (ip : String) : Nft :=
  let st := st.ensureTable r
  { st with pendingAdd := st.pendingAdd ++ [ip] }

def Nft.unbanIP (st : Nft) (ip : String) : Nft := { st with pendingDel := st.pendingDel ++ [ip] }

/-- The part of `Flush` after the table exists. -/
def Nft.applyBatch (r : RangeOrder) (st : Nft) (adds dels : List String) : Nft :=
  let plan := planIntervalSet r (listPresent st.elements) st.covered adds dels
  { st with
    covered := plan.covered
    -- Entries still held by the old set are removed from it as well.
    legacySet :=
      if st.legacy then st.legacySet.map (·.filter (·.key ∉ canonicalBanList dels))
      else st.legacySet
    elements := (nftApply st.elements plan.toDel plan.toAdd).1 }

def Nft.flush (rm r : RangeOrder) (st : Nft) : Nft :=
  if st.pendingAdd = [] ∧ st.pendingDel = [] then st
  else
    ({ st with pendingAdd := [], pendingDel := [] }.ensureTable rm).applyBatch r st.pendingAdd
      st.pendingDel

def Nft.getBannedIPs (rm r : RangeOrder) (st : Nft) : List String × Nft :=
  let st := st.ensureTable rm
  let out := reportWithCovered r (listPresent st.elements) st.covered
  let out :=
    if st.legacy then
      match st.legacySet with
      | some legacyEntries => canonicalBanList (out ++ legacyEntries.map Entry.key)
      | none => out
    else out
  (out, st)

/-- The addresses the drop rules match. -/
def Nft.blocked (st : Nft) : Set Addr :=
  {a | (∃ n ∈ st.elements, a ∈ n) ∨ ∃ l ∈ st.legacySet, ∃ e ∈ l, a ∈ e.1}

/-- The backend of a fresh process. -/
def Nft.start (elements : List Net) (legacySet : Option (List Entry)) : Nft :=
  ⟨false, [], [], [], false, elements, legacySet⟩

/-! ## Rounds -/

/-- A queued call. -/
inductive BanCall
  | ban (ip : String)
  | unban (ip : String)

/-- A report, a batch and its flush, with the orders of every `range` on the way. -/
structure Round where
  calls : List BanCall
  migrate : RangeOrder
  flush : RangeOrder
  report : RangeOrder

def Round.adds (rd : Round) : List String :=
  rd.calls.filterMap fun | .ban ip => some ip | .unban _ => none

def Round.dels (rd : Round) : List String :=
  rd.calls.filterMap fun | .ban _ => none | .unban ip => some ip

def Nft.call (r : RangeOrder) (st : Nft) : BanCall → Nft
  | .ban ip => st.banIP r ip
  | .unban ip => st.unbanIP ip

/-- What `GetBannedIPs` reports before the batch, and the state after its flush. -/
def Nft.round (st : Nft) (rd : Round) : List String × Nft :=
  let (reported, st) := st.getBannedIPs rd.migrate rd.report
  (reported, (rd.calls.foldl (Nft.call rd.migrate) st).flush rd.migrate rd.flush)

def Nft.run (st : Nft) (rds : List Round) : Nft := rds.foldl (fun st rd => (st.round rd).2) st

/-- What a batch asks for, given the report before it. -/
def Round.asked (rd : Round) (reported : List String) : Set Entry :=
  {e | (e.key ∈ reported ∧ e ∉ named rd.dels) ∨ e ∈ named rd.adds}

/-! ## Scripts that the kernel accepts -/

section kernel
variable {α : Type} [DecidableEq α] [PartialOrder α] [DecidableLE α]

theorem kernelScript_append (els : List α) (as bs : List (NftCmd α)) :
    kernelScript els (as ++ bs) = (kernelScript els as).bind fun els => kernelScript els bs := by
  simp [kernelScript, List.foldlM_append]

theorem kernelScript_delete {els : List α} (hnd : els.Nodup) :
    ∀ {ds : List α}, ds.Nodup → (∀ d ∈ ds, d ∈ els) →
      ∃ els', kernelScript els (ds.map .delete) = some els' ∧ els'.Nodup ∧
        ∀ e, e ∈ els' ↔ e ∈ els ∧ e ∉ ds := by
  intro ds
  induction ds generalizing els with
  | nil => intro _ _; exact ⟨els, rfl, hnd, by simp⟩
  | cons d ds ih =>
    intro hds hsub
    have hd := List.nodup_cons.mp hds
    obtain ⟨els', hrun, hnd', hmem⟩ := ih (hnd.filter (· ≠ d)) hd.2 (by
      intro k hk
      exact List.mem_filter.mpr ⟨hsub k (by simp [hk]), decide_eq_true fun h => hd.1 (h ▸ hk)⟩)
    refine ⟨els', ?_, hnd', fun e => ?_⟩
    · rw [List.map_cons, kernelScript, List.foldlM_cons, kernelExec, if_pos (hsub d (by simp))]
      exact hrun
    · rw [hmem, List.mem_filter, decide_eq_true_eq, List.mem_cons]
      tauto

omit [DecidableEq α] in
theorem overlapping_iff {d e : α} : overlapping d e = true ↔ d ≤ e ∨ e ≤ d := by
  simp [overlapping]

theorem kernelExec_add {F : Set α} (hF : IsAntichain (· ≤ ·) F) {els : List α} {a : α}
    (hels : ∀ e ∈ els, e ∈ F) (haF : a ∈ F) :
    kernelExec els (.add a) = some (if a ∈ els then els else els ++ [a]) := by
  rw [kernelExec]
  split
  · rfl
  · rename_i ha
    rw [if_neg]
    intro hany
    obtain ⟨d, hd, hover⟩ := List.any_eq_true.mp hany
    have hne : a ≠ d := fun h => ha (h ▸ hd)
    rcases overlapping_iff.mp hover with h | h
    · exact hne (hF.eq haF (hels d hd) h)
    · exact hne (hF.eq (hels d hd) haF h).symm

theorem kernelScript_add {F : Set α} (hF : IsAntichain (· ≤ ·) F) :
    ∀ {as els : List α}, els.Nodup → (∀ e ∈ els, e ∈ F) → (∀ a ∈ as, a ∈ F) →
      ∃ els', kernelScript els (as.map .add) = some els' ∧ els'.Nodup ∧
        ∀ e, e ∈ els' ↔ e ∈ els ∨ e ∈ as := by
  intro as
  induction as with
  | nil => intro els hnd _ _; exact ⟨els, rfl, hnd, by simp⟩
  | cons a as ih =>
    intro els hnd hels has
    have haF := has a (by simp)
    have hexec := kernelExec_add hF hels haF
    have hmem : ∀ e, e ∈ (if a ∈ els then els else els ++ [a]) ↔ e ∈ els ∨ e = a := by
      intro e
      split
      · rename_i ha
        exact ⟨Or.inl, fun h => h.elim id fun h => h ▸ ha⟩
      · rw [List.mem_append, List.mem_singleton]
    have hnext : (if a ∈ els then els else els ++ [a]).Nodup := by
      split
      · exact hnd
      · rename_i ha
        exact List.nodup_append.mpr ⟨hnd, by simp, fun b hb c hc hbc => ha (by simp_all)⟩
    obtain ⟨els', hrun, hnd', hmem'⟩ := ih hnext (by
      intro e he
      rcases (hmem e).mp he with he | rfl
      · exact hels e he
      · exact haF) fun k hk => has k (by simp [hk])
    refine ⟨els', ?_, hnd', fun e => ?_⟩
    · rw [List.map_cons, kernelScript, List.foldlM_cons, hexec]
      exact hrun
    · rw [hmem', hmem, List.mem_cons, or_assoc]

end kernel

theorem mem_bySet {keys : List Entry} {n : Net} :
    n ∈ ((keys.filter fun p => p.1.family = .v4) ++ (keys.filter fun p => p.1.family = .v6)).map (·.1) ↔
      ∃ e ∈ keys, e.1 = n := by
  simp only [List.mem_map, List.mem_append, List.mem_filter, decide_eq_true_eq]
  refine exists_congr fun e => and_congr_left fun _ => ?_
  constructor
  · rintro (h | h) <;> exact h.1
  · intro h
    cases hf : e.1.family with
    | v4 => exact Or.inl ⟨h, rfl⟩
    | v6 => exact Or.inr ⟨h, rfl⟩

theorem nodup_bySet {keys : List Entry} (h : keys.Nodup) :
    (((keys.filter fun p => p.1.family = .v4) ++
      (keys.filter fun p => p.1.family = .v6)).map (·.1)).Nodup := by
  refine List.Nodup.map Subtype.val_injective (List.nodup_append.mpr ⟨h.filter _, h.filter _, ?_⟩)
  rintro a ha b hb rfl
  simp only [List.mem_filter, decide_eq_true_eq] at ha hb
  rw [ha.2] at hb
  exact absurd hb.2 (by decide)

/-! ## Sets of canonical entries -/

/-- Every element is a canonical entry. -/
def Canonical (els : List Net) : Prop := ∀ n ∈ els, ¬n.IsMapped

instance (els : List Net) : Decidable (Canonical els) := inferInstanceAs (Decidable (∀ n ∈ els, ¬n.IsMapped))

theorem listPresent_spec {els : List Net} (hels : Canonical els) :
    (listPresent els).Nodup ∧ ∀ e, e ∈ listPresent els ↔ e.1 ∈ els := by
  induction els using List.reverseRecOn with
  | nil => exact ⟨List.nodup_nil, fun e => by simp [listPresent]⟩
  | append_singleton els n ih =>
    obtain ⟨hnd, hmem⟩ := ih fun m hm => hels m (List.mem_append_left _ hm)
    have hn : ¬n.IsMapped := hels n (by simp)
    have hstep : listPresent (els ++ [n]) = (listPresent els).put ⟨n, hn⟩ := by
      rw [listPresent, List.foldl_append, List.foldl_cons, List.foldl_nil, ← listPresent]
      rw [show entryOf (banEntryKey n) = some ⟨n, hn⟩ from entryOf_key ⟨n, hn⟩]
    rw [hstep]
    refine ⟨EntryMap.nodup_put hnd _, fun e => ?_⟩
    rw [EntryMap.mem_put, hmem, List.mem_append, List.mem_singleton, Subtype.ext_iff]

theorem exists_mem_listPresent {els : List Net} (hels : Canonical els) {n : Net} :
    n ∈ els ↔ ∃ e ∈ listPresent els, e.1 = n := by
  constructor
  · exact fun hn => ⟨⟨n, hels n hn⟩, ((listPresent_spec hels).2 _).mpr hn, rfl⟩
  · rintro ⟨e, he, rfl⟩
    exact ((listPresent_spec hels).2 e).mp he

theorem nftApply_plan {els : List Net} {S' : Set Entry} {plan : Plan} (hels : Canonical els)
    (h : PlanSpec (listPresent els) S' plan) (hnd : els.Nodup) :
    ∃ els', nftApply els plan.toDel plan.toAdd = (els', 0) ∧ els'.Nodup ∧ Canonical els' ∧
      ∀ e, e ∈ listPresent els' ↔ e ∈ plan.pres := by
  have hfound : ∀ els', (∀ n, n ∈ els' ↔ ∃ e ∈ plan.pres, e.1 = n) →
      Canonical els' ∧ ∀ e, e ∈ listPresent els' ↔ e ∈ plan.pres := by
    intro els' hmem
    have hcanonical : Canonical els' := by
      intro n hn
      obtain ⟨e, -, rfl⟩ := (hmem n).mp hn
      exact e.2
    refine ⟨hcanonical, fun e => ?_⟩
    rw [(listPresent_spec hcanonical).2, hmem]
    constructor
    · rintro ⟨d, hd, heq⟩
      exact Subtype.ext heq ▸ hd
    · exact fun he => ⟨e, he, rfl⟩
  rw [nftApply]
  split
  · rename_i hnil
    refine ⟨els, rfl, hnd, hfound els fun n => ?_⟩
    rw [exists_mem_listPresent hels]
    refine exists_congr fun e => and_congr_left fun _ => ?_
    rw [h.pres_iff, hnil.1, hnil.2]
    simp
  · have hF : IsAntichain (· ≤ ·) (Subtype.val '' {e | e ∈ plan.pres}) := by
      rintro - ⟨a, ha, rfl⟩ - ⟨b, hb, rfl⟩ hne hle
      exact h.covers.antichain ha hb (fun heq => hne (congrArg Subtype.val heq)) hle
    obtain ⟨mid, hdel, hndmid, hmid⟩ := kernelScript_delete hnd (nodup_bySet h.toDel_nodup) (by
      intro n hn
      obtain ⟨e, he, rfl⟩ := mem_bySet.mp hn
      exact ((listPresent_spec hels).2 e).mp (h.toDel_sub e he))
    have hkept : ∀ n, n ∈ mid ↔ ∃ e, (e ∈ listPresent els ∧ e ∉ plan.toDel) ∧ e.1 = n := by
      intro n
      rw [hmid, exists_mem_listPresent hels, mem_bySet]
      constructor
      · rintro ⟨⟨e, he, rfl⟩, hnot⟩
        exact ⟨e, ⟨he, fun hd => hnot ⟨e, hd, rfl⟩⟩, rfl⟩
      · rintro ⟨e, ⟨he, hd⟩, rfl⟩
        refine ⟨⟨e, he, rfl⟩, ?_⟩
        rintro ⟨d, hd', heq⟩
        exact hd (Subtype.ext heq ▸ hd')
    obtain ⟨els', hadd, hnd', hmem⟩ := kernelScript_add hF hndmid (by
      intro n hn
      obtain ⟨e, he, rfl⟩ := (hkept n).mp hn
      exact ⟨e, (h.pres_iff e).mpr (Or.inl he), rfl⟩) fun n hn => by
        obtain ⟨e, he, rfl⟩ := mem_bySet.mp hn
        exact ⟨e, (h.pres_iff e).mpr (Or.inr he), rfl⟩
    refine ⟨els', ?_, hnd', hfound els' fun n => ?_⟩
    · simp only [nftElementScript]
      rw [kernelScript_append, hdel, Option.bind_some, hadd]
    · rw [hmem, hkept, mem_bySet]
      simp only [h.pres_iff]
      constructor
      · rintro (⟨e, he, rfl⟩ | ⟨e, he, rfl⟩)
        · exact ⟨e, Or.inl he, rfl⟩
        · exact ⟨e, Or.inr he, rfl⟩
      · rintro ⟨e, he | he, rfl⟩
        · exact Or.inl ⟨e, he, rfl⟩
        · exact Or.inr ⟨e, he, rfl⟩

/-! ## Refinement -/

/-- The state between two batches. -/
structure Nft.Settled (st : Nft) : Prop where
  initialized : st.initialized = true
  legacy : st.legacy = false
  legacySet : st.legacySet = none
  canonical : Canonical st.elements
  nodup : st.elements.Nodup
  covers : Covers {e | e ∈ listPresent st.elements} {e | e ∈ st.covered}

/-- The entries a settled backend stands for. -/
def Nft.entries (st : Nft) : Set Entry := {e | e ∈ listPresent st.elements ∨ e ∈ st.covered}

theorem Nft.Settled.pending {st : Nft} (h : st.Settled) (adds dels : List String) :
    Nft.Settled { st with pendingAdd := adds, pendingDel := dels } :=
  ⟨h.initialized, h.legacy, h.legacySet, h.canonical, h.nodup, h.covers⟩

theorem ensureTable_settled {r : RangeOrder} {st : Nft} (h : st.Settled) : st.ensureTable r = st := by
  rw [Nft.ensureTable, if_pos h.initialized]

theorem mem_named_key {l : List Entry} {e : Entry} : e ∈ named (l.map Entry.key) ↔ e ∈ l := by
  constructor
  · rintro ⟨s, hs, he⟩
    obtain ⟨d, hd, rfl⟩ := List.mem_map.mp hs
    rw [entryOf_key, Option.some.injEq] at he
    exact he ▸ hd
  · intro he
    exact ⟨e.key, List.mem_map.mpr ⟨e, he, rfl⟩, entryOf_key e⟩

theorem nodup_of_not_overlaps {β : Type} {f : β → Net} {els : List β}
    (hels : els.Pairwise fun a b => ¬ (f a).Overlaps (f b)) : els.Nodup := by
  refine hels.imp ?_
  rintro a b hover rfl
  exact hover (Net.overlaps_iff.mpr (Or.inl le_rfl))

theorem antichain_of_not_overlaps {β : Type} [PartialOrder β] {f : β → Net} (hf : Monotone f) {els : List β}
    (hels : els.Pairwise fun a b => ¬ (f a).Overlaps (f b)) : IsAntichain (· ≤ ·) {e | e ∈ els} := by
  have : Std.Symm fun a b : β => ¬ (f a).Overlaps (f b) := ⟨fun _ _ h h' => h h'.symm⟩
  intro a ha b hb hne hle
  exact hels.forall ha hb hne (Net.overlaps_iff.mpr (Or.inl (hf hle)))

theorem antichain_listPresent {els : List Net} (hcanonical : Canonical els)
    (hels : els.Pairwise fun a b => ¬ a.Overlaps b) : IsAntichain (· ≤ ·) {e | e ∈ listPresent els} := by
  intro a ha b hb hne hle
  rw [Set.mem_ofPred_eq, (listPresent_spec hcanonical).2] at ha hb
  have hels' := antichain_of_not_overlaps (f := id) monotone_id hels
  exact hne (Subtype.ext (hels'.eq ha hb hle))

theorem pairwise_not_overlaps {β : Type} [PartialOrder β] {f : β → Net} (hf : ∀ a b, f a ≤ f b → a ≤ b)
    {els : List β} (hnd : els.Nodup) (hels : IsAntichain (· ≤ ·) {e | e ∈ els}) :
    els.Pairwise fun a b => ¬ (f a).Overlaps (f b) := by
  refine hnd.imp_of_mem fun {a b} ha hb hne hover => ?_
  rcases Net.overlaps_iff.mp hover with hle | hle
  · exact hne (hels.eq ha hb (hf a b hle))
  · exact hne (hels.eq hb ha (hf b a hle)).symm

theorem antichain_elements {els : List Net} (hcanonical : Canonical els)
    (hels : IsAntichain (· ≤ ·) {e | e ∈ listPresent els}) : IsAntichain (· ≤ ·) {n | n ∈ els} := by
  intro a ha b hb hne hle
  obtain ⟨d, hd, rfl⟩ := (exists_mem_listPresent hcanonical).mp ha
  obtain ⟨e, he, rfl⟩ := (exists_mem_listPresent hcanonical).mp hb
  exact hne (congrArg Subtype.val (hels.eq hd he hle))

/-- A fresh process over sets without overlaps settles at its first command, with what the old set
held on top. -/
theorem ensureTable_start (r : RangeOrder) {els : List Net} (legacySet : Option (List Entry))
    (hcanonical : Canonical els) (hels : els.Pairwise fun a b => ¬ a.Overlaps b) :
    ((Nft.start els legacySet).ensureTable r).Settled ∧
      ((Nft.start els legacySet).ensureTable r).pendingAdd = [] ∧
      ((Nft.start els legacySet).ensureTable r).pendingDel = [] := by
  have hnd := nodup_of_not_overlaps (f := id) hels
  have hcovers : Covers {e | e ∈ listPresent els} {e | e ∈ ([] : EntryMap)} :=
    ⟨antichain_listPresent hcanonical hels, by simp⟩
  cases legacySet with
  | none => exact ⟨⟨rfl, rfl, rfl, hcanonical, hnd, hcovers⟩, rfl, rfl⟩
  | some l =>
    have hspec := planIntervalSet_spec r hcovers (listPresent_spec hcanonical).1 (l.map Entry.key) []
    obtain ⟨els', happly, hnd', hcanonical', hmem⟩ := nftApply_plan hcanonical hspec hnd
    by_cases hl : l = []
    · subst hl
      have hst : (Nft.start els (some [])).ensureTable r =
          { Nft.start els none with initialized := true } := by
        simp [Nft.ensureTable, Nft.start, Nft.migrateLegacy]
      rw [hst]
      exact ⟨⟨rfl, rfl, rfl, hcanonical, hnd, hcovers⟩, rfl, rfl⟩
    · have hst : (Nft.start els (some l)).ensureTable r =
          { Nft.start els' none with
            initialized := true
            covered := (planIntervalSet r (listPresent els) [] (l.map Entry.key) []).covered } := by
        simp [Nft.ensureTable, Nft.start, Nft.migrateLegacy, happly, hl]
      rw [hst]
      refine ⟨⟨rfl, rfl, rfl, hcanonical', hnd', ?_⟩, rfl, rfl⟩
      convert hspec.covers using 1
      ext e
      exact hmem e

theorem getBannedIPs_settled {st : Nft} (h : st.Settled) (rm r : RangeOrder) :
    (st.getBannedIPs rm r).2 = st ∧
      ∀ s, s ∈ (st.getBannedIPs rm r).1 ↔ ∃ e ∈ st.entries, e.key = s := by
  rw [Nft.getBannedIPs, ensureTable_settled h]
  refine ⟨rfl, fun s => ?_⟩
  simp only [h.legacy, Bool.false_eq_true, if_false]
  exact mem_reportWithCovered r h.covers

theorem calls_settled {r : RangeOrder} (calls : List BanCall) {st : Nft} (h : st.Settled) :
    calls.foldl (Nft.call r) st = { st with
      pendingAdd := st.pendingAdd ++ calls.filterMap fun | .ban ip => some ip | .unban _ => none,
      pendingDel := st.pendingDel ++ calls.filterMap fun | .ban _ => none | .unban ip => some ip } := by
  induction calls generalizing st with
  | nil => simp
  | cons c calls ih =>
    rw [List.foldl_cons]
    cases c with
    | ban ip =>
      rw [Nft.call, Nft.banIP, ensureTable_settled h, ih (h.pending _ st.pendingDel)]
      simp
    | unban ip =>
      rw [Nft.call, Nft.unbanIP, ih (h.pending st.pendingAdd _)]
      simp

theorem flush_settled {st : Nft} (h : st.Settled) (rm r : RangeOrder) :
    (st.flush rm r).Settled ∧ (st.flush rm r).pendingAdd = [] ∧ (st.flush rm r).pendingDel = [] ∧
      ∀ e, e ∈ (st.flush rm r).entries ↔
        (e ∈ st.entries ∧ e ∉ named st.pendingDel) ∨ e ∈ named st.pendingAdd := by
  rw [Nft.flush]
  split
  · rename_i hnil
    refine ⟨h, hnil.1, hnil.2, fun e => ?_⟩
    rw [hnil.1, hnil.2]
    simp [named]
  · have hspec := planIntervalSet_spec r h.covers (listPresent_spec h.canonical).1 st.pendingAdd st.pendingDel
    obtain ⟨els', happly, hnd', hcanonical', hmem⟩ := nftApply_plan h.canonical hspec h.nodup
    rw [ensureTable_settled (h.pending [] []), Nft.applyBatch]
    simp only [h.legacy, Bool.false_eq_true, if_false, happly]
    refine ⟨⟨h.initialized, rfl, h.legacySet, hcanonical', hnd', ?_⟩, trivial, trivial, fun e => ?_⟩
    · convert hspec.covers using 1
      ext e
      exact hmem e
    · show e ∈ listPresent els' ∨ e ∈ _ ↔ _
      rw [hmem]
      exact hspec.all_iff e

theorem round_settled {st : Nft} (rd : Round)
    (h : (st.ensureTable rd.migrate).Settled ∧ (st.ensureTable rd.migrate).pendingAdd = [] ∧
      (st.ensureTable rd.migrate).pendingDel = []) :
    (st.round rd).2.Settled ∧ (st.round rd).2.pendingAdd = [] ∧ (st.round rd).2.pendingDel = [] ∧
      ∀ e, e ∈ (st.round rd).2.entries ↔ e ∈ rd.asked (st.round rd).1 := by
  have hround : (st.round rd) = ((st.ensureTable rd.migrate).getBannedIPs rd.migrate rd.report).map id
      fun st => (rd.calls.foldl (Nft.call rd.migrate) st).flush rd.migrate rd.flush := by
    rw [Nft.round, Nft.getBannedIPs, Nft.getBannedIPs, ensureTable_settled h.1]
    rfl
  obtain ⟨hset, hadd, hdel⟩ := h
  generalize st.ensureTable rd.migrate = st1 at hset hadd hdel hround
  obtain ⟨hsame, hrep⟩ := getBannedIPs_settled hset rd.migrate rd.report
  rw [hround]
  simp only [Prod.map, id, hsame]
  rw [calls_settled rd.calls hset]
  have hflush := flush_settled (hset.pending (st1.pendingAdd ++ rd.adds)
    (st1.pendingDel ++ rd.dels)) rd.migrate rd.flush
  refine ⟨hflush.1, hflush.2.1, hflush.2.2.1, fun e => ?_⟩
  have hkey : e.key ∈ (st1.getBannedIPs rd.migrate rd.report).1 ↔ e ∈ st1.entries := by
    rw [hrep]
    constructor
    · rintro ⟨d, hd, hk⟩
      exact Entry.key_injective hk ▸ hd
    · exact fun he => ⟨e, he, rfl⟩
  refine (hflush.2.2.2 e).trans ?_
  simp only [hadd, hdel, List.nil_append, Round.asked, Set.mem_ofPred_eq, hkey]
  rfl

/-- Every state of a run settles at its next command. -/
theorem run_settled {els : List Net} {legacySet : Option (List Entry)} (hcanonical : Canonical els)
    (hels : els.Pairwise fun a b => ¬ a.Overlaps b) (rds : List Round) (r : RangeOrder) :
    (((Nft.start els legacySet).run rds).ensureTable r).Settled ∧
      (((Nft.start els legacySet).run rds).ensureTable r).pendingAdd = [] ∧
      (((Nft.start els legacySet).run rds).ensureTable r).pendingDel = [] := by
  induction rds using List.reverseRecOn generalizing r with
  | nil => exact ensureTable_start r legacySet hcanonical hels
  | append_singleton rds rd ih =>
    have h := round_settled rd (ih rd.migrate)
    rw [Nft.run, List.foldl_append, List.foldl_cons, List.foldl_nil, ← Nft.run,
      ensureTable_settled h.1]
    exact ⟨h.1, h.2.1, h.2.2.1⟩

/-- From kernel sets of canonical entries without overlaps, whatever the batches and the orders in
which maps are visited: after each flush the sets have no overlaps, they hold the maximal entries of
what was asked for, the report is what was asked for, and the addresses blocked are those of its
networks. -/
theorem nftRun_refines (els : List Net) (legacySet : Option (List Entry)) (hcanonical : Canonical els)
    (hels : els.Pairwise fun a b => ¬ a.Overlaps b) (rds : List Round) (rd : Round) :
    let reported := (((Nft.start els legacySet).run rds).round rd).1
    let st := (((Nft.start els legacySet).run rds).round rd).2
    (st.elements.Pairwise fun a b => ¬ a.Overlaps b) ∧
      (∀ n, n ∈ st.elements ↔ ∃ e, Maximal (· ∈ rd.asked reported) e ∧ e.1 = n) ∧
      (∀ rm r s, s ∈ (st.getBannedIPs rm r).1 ↔ ∃ e ∈ rd.asked reported, e.key = s) ∧
      st.blocked = {a | ∃ e ∈ rd.asked reported, a ∈ e.1} := by
  obtain ⟨hset, -, -, hentries⟩ := round_settled rd (run_settled hcanonical hels rds rd.migrate)
  have hasked : ∀ e, e ∈ rd.asked (((Nft.start els legacySet).run rds).round rd).1 ↔
      e ∈ listPresent (((Nft.start els legacySet).run rds).round rd).2.elements ∨
        e ∈ (((Nft.start els legacySet).run rds).round rd).2.covered := fun e => (hentries e).symm
  refine ⟨?_, fun n => ?_, fun rm r s => ?_, ?_⟩
  · exact pairwise_not_overlaps (f := id) (fun _ _ h => h) hset.nodup
      (antichain_elements hset.canonical hset.covers.antichain)
  · simp only [hasked]
    rw [exists_mem_listPresent hset.canonical]
    exact exists_congr fun e => and_congr_left fun _ => hset.covers.maximal_iff.symm
  · rw [(getBannedIPs_settled hset rm r).2 s]
    exact exists_congr fun e => and_congr_left fun _ => hentries e
  · ext a
    simp only [Nft.blocked, hset.legacySet, Option.mem_def, reduceCtorEq, false_and, exists_false,
      or_false, Set.mem_ofPred_eq, hasked]
    constructor
    · rintro ⟨n, hn, ha⟩
      obtain ⟨e, he, rfl⟩ := (exists_mem_listPresent hset.canonical).mp hn
      exact ⟨e, Or.inl he, ha⟩
    · rintro ⟨e, he | he, ha⟩
      · exact ⟨e.1, ((listPresent_spec hset.canonical).2 e).mp he, ha⟩
      · obtain ⟨n, hn, hlt⟩ := hset.covers.below e he
        exact ⟨n.1, ((listPresent_spec hset.canonical).2 n).mp hn,
          Net.mem_of_le (show e.1 ≤ n.1 from hlt.le) ha⟩

/-- `nftRun_refines` on a network that swallows a present address. -/
theorem nftRun_refines_swallow :
    let els : List Net := [Net.ofAddr .v4 0x01020304 32 (by decide) (by decide)]
    let rd : Round := ⟨[.ban "1.2.3.0/24", .unban "5.6.7.8"], .asListed, .asListed, .asListed⟩
    let reported := ((Nft.start els none).round rd).1
    let st := ((Nft.start els none).round rd).2
    (els.Pairwise fun a b => ¬ a.Overlaps b) ∧
      (∀ n, n ∈ st.elements ↔ ∃ e, Maximal (· ∈ rd.asked reported) e ∧ e.1 = n) ∧
      st.blocked = {a | ∃ e ∈ rd.asked reported, a ∈ e.1} := by
  intro els rd reported st
  have hcanonical : Canonical els := by decide
  have hels : els.Pairwise fun a b => ¬ a.Overlaps b := by decide
  have h := nftRun_refines els none hcanonical hels [] rd
  exact ⟨hels, h.2.1, h.2.2.2⟩

/-- `::ffff:1.2.3.0/120` in `obliguard_nets6`. -/
def mappedElements : List Net := [Net.ofAddr .v6 0xffff01020300 120 (by decide) (by decide)]

/-- A round that bans an unrelated address. -/
def strangerRound : Round := ⟨[.ban "5.6.7.8"], .asListed, .asListed, .asListed⟩

/-- An IPv4-mapped element is reported as the IPv4 network, which nothing blocks. -/
theorem nftRun_mapped :
    (mappedElements.Pairwise fun a b => ¬ a.Overlaps b) ∧
      ((Nft.start mappedElements none).round strangerRound).2.elements =
        mappedElements ++ [Net.ofAddr .v4 0x05060708 32 (by decide) (by decide)] ∧
      ((Nft.start mappedElements none).round strangerRound).2.blocked ≠
        {a | ∃ e ∈ strangerRound.asked ((Nft.start mappedElements none).round strangerRound).1, a ∈ e.1} := by
  have helements : ((Nft.start mappedElements none).round strangerRound).2.elements =
      mappedElements ++ [Net.ofAddr .v4 0x05060708 32 (by decide) (by decide)] := by decide +kernel
  have hlegacy : ((Nft.start mappedElements none).round strangerRound).2.legacySet = none := by decide +kernel
  have hreported : "1.2.3.0/24" ∈ ((Nft.start mappedElements none).round strangerRound).1 := by decide +kernel
  refine ⟨by decide, helements, fun heq => ?_⟩
  let net : Entry := ⟨Net.ofAddr .v4 0x01020300 24 (by decide) (by decide), by decide⟩
  have hkept : net ∉ named strangerRound.dels := by
    rintro ⟨s, hs, -⟩
    exact List.not_mem_nil hs
  have hkey : net.key = "1.2.3.0/24" := by decide +kernel
  have hblocked : net.1.first ∈ ((Nft.start mappedElements none).round strangerRound).2.blocked :=
    heq ▸ ⟨net, Or.inl ⟨hkey ▸ hreported, hkept⟩, net.1.first_mem⟩
  rw [Nft.blocked, helements, hlegacy] at hblocked
  rcases hblocked with hn | ⟨l, hl, -⟩
  · exact absurd hn (by decide)
  · contradiction

end Obliguard.Agent

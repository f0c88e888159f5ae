import Mathlib.Data.List.Sort
import Mathlib.Data.String.Basic
import Obliguard.Agent.BanEntry
import Obliguard.Lib.Cover

/-!
# Planning the elements of an interval set

`planIntervalSet` and `reportWithCovered` of `agent/firewall.go`: the element changes for a set that
refuses overlapping elements. A Go map from canonical texts to prefixes is the list of its prefixes,
since the text determines the prefix (`key_injective`). Go ranges over a map in an arbitrary order,
so every `range` asks a `RangeOrder`, which may answer with any permutation.

`planIntervalSet_spec` is the result on one plan: if the present elements cover the hidden ones they
still do afterwards, together they are what was asked for, and the present ones are the old ones
less `toDel` and with `toAdd`.
-/

namespace Obliguard.Agent

open AddrText Text Cover

/-! ## Entries -/

/-- A canonical ban entry: a network that is not one of IPv4-mapped addresses. -/
abbrev Entry := {n : Net // ¬ n.IsMapped}

/-- The canonical text of an entry. -/
def Entry.key (e : Entry) : String := banEntryKey e.1

theorem Entry.key_eq (e : Entry) : e.key = String.ofList e.1.text := banEntryKey_eq e.2

theorem Entry.key_injective {d e : Entry} (h : d.key = e.key) : d = e := by
  rw [Entry.key_eq, Entry.key_eq, String.ofList_inj] at h
  exact Subtype.ext (Net.text_injective d.2 e.2 h)

theorem not_isMapped_of_canonicalBanEntry {s : String} {k : String} {p : Net}
    (h : canonicalBanEntry s = some (k, p)) : ¬ p.IsMapped := by
  rw [canonicalBanEntry_eq] at h
  obtain ⟨n, hn, heq⟩ := Option.map_eq_some_iff.mp h
  rw [← (Prod.mk.inj heq).2]
  exact readTarget_not_mapped hn

/-- The entry `canonicalBanEntry` reads. -/
def entryOf (s : String) : Option Entry :=
  match h : canonicalBanEntry s with
  | some (_, p) => some ⟨p, not_isMapped_of_canonicalBanEntry h⟩
  | none => none

theorem canonicalBanEntry_key (e : Entry) : canonicalBanEntry e.key = some (e.key, e.1) := by
  rw [canonicalBanEntry_eq, e.key_eq, String.toList_ofList, goTrim_text e.2, readTarget_text e.2]
  rfl

theorem entryOf_eq_some {s k : String} {p : Net} (h : canonicalBanEntry s = some (k, p)) :
    entryOf s = some ⟨p, not_isMapped_of_canonicalBanEntry h⟩ := by
  unfold entryOf
  split
  · rename_i k' p' h'
    rw [h] at h'
    exact congrArg some (Subtype.ext (Prod.mk.inj (Option.some.inj h')).2.symm)
  · rename_i h'
    rw [h] at h'
    contradiction

theorem entryOf_key (e : Entry) : entryOf e.key = some e := entryOf_eq_some (canonicalBanEntry_key e)

/-! ## Maps -/

/-- A Go map of entries, as the list of its elements. -/
abbrev EntryMap := List Entry

instance : LawfulBEq Entry := inferInstance

/-- `m[k] = p`. -/
def EntryMap.put (m : EntryMap) (e : Entry) : EntryMap := if e ∈ m then m else m ++ [e]

/-- `delete(m, k)`. -/
def EntryMap.delete (m : EntryMap) (e : Entry) : EntryMap := m.filter (· ≠ e)

@[simp] theorem EntryMap.mem_put {m : EntryMap} {e d : Entry} : d ∈ m.put e ↔ d ∈ m ∨ d = e := by
  rw [put]
  split
  · rename_i h
    constructor
    · exact Or.inl
    · rintro (hd | rfl)
      · exact hd
      · exact h
  · simp

@[simp] theorem EntryMap.mem_delete {m : EntryMap} {e d : Entry} :
    d ∈ m.delete e ↔ d ∈ m ∧ d ≠ e := by
  simp [delete]

/-- The places where the code ranges over a map. -/
inductive RangeSite
  | covered
  | want
  | cover (p : Entry)
  | retire (p : Entry)
deriving DecidableEq

/-- The order in which each `range` visits a map: any permutation of its elements. -/
structure RangeOrder where
  order : RangeSite → EntryMap → EntryMap
  perm : ∀ s m, (order s m).Perm m

/-- The order in which the elements are listed. -/
def RangeOrder.asListed : RangeOrder := ⟨fun _ m => m, fun _ m => List.Perm.refl m⟩

@[simp] theorem RangeOrder.mem_order {r : RangeOrder} {s : RangeSite} {m : EntryMap} {e : Entry} :
    e ∈ r.order s m ↔ e ∈ m := (r.perm s m).mem_iff

/-! ## `planIntervalSet` -/

/-- `Prefix.Contains` on the address of `p`, with the test of the family before it. -/
def containsAddr (n p : Entry) : Bool := decide (n.1.family = p.1.family) && decide (p.1.first ∈ n.1)

/-- `prefixCoveredBy` returns a network in `nets` (other than `p` itself) that contains `p`. -/
def prefixCoveredBy (r : RangeOrder) (p : Entry) (nets : EntryMap) : Option Entry :=
  (r.order (.cover p) nets).find? fun n =>
    !(decide (n = p) || decide (n.1.len > p.1.len)) && containsAddr n p

/-- The variables of `planIntervalSet`. -/
structure Plan where
  pres : EntryMap
  nets : EntryMap
  covered : EntryMap
  toDel : List Entry
  toAdd : List Entry

/-- `pres` and `nets` as copied from `present`. -/
def Plan.init (present covered : EntryMap) : Plan :=
  ⟨present, present.filter fun p => !isHostEntry p.1, covered, [], []⟩

/-- One removal. -/
def Plan.removal (st : Plan) (d : String) : Plan :=
  match entryOf d with
  | none => st
  | some k =>
    if k ∈ st.covered then { st with covered := st.covered.delete k }
    else if k ∈ st.pres then
      { st with toDel := st.toDel ++ [k], pres := st.pres.delete k, nets := st.nets.delete k }
    else st

/-- The requested additions. -/
def wantOf (adds : List String) : EntryMap :=
  adds.foldl (fun want a => match entryOf a with
    | none => want
    | some p => want.put p) []

/-- The covered entries whose covering network was just removed are wanted again. -/
def recoverStep (r : RangeOrder) (nets : EntryMap) (s : EntryMap × EntryMap) (k : Entry) :
    EntryMap × EntryMap :=
  if (prefixCoveredBy r k nets).isNone then (s.1.put k, s.2.delete k) else s

/-- Broadest first, so a network lands before the entries it contains. -/
def broader (a b : Entry) : Bool :=
  decide (a.1.len < b.1.len) || (decide (a.1.len = b.1.len) && decide (a.key ≤ b.key))

/-- The present element `e` is narrower than `p` and inside it. -/
def retires (p e : Entry) : Bool := e.1.len > p.1.len && containsAddr p e

/-- One turn of the loop that retires the narrower present elements `p` contains. -/
def retireStep (p : Entry) (st : Plan) (e : Entry) : Plan :=
  if retires p e then
    { st with toDel := st.toDel ++ [e], pres := st.pres.delete e, nets := st.nets.delete e,
              covered := st.covered.put e }
  else st

/-- Placing one wanted entry. -/
def Plan.place (r : RangeOrder) (st : Plan) (p : Entry) : Plan :=
  if p ∈ st.pres then { st with covered := st.covered.delete p }
  else if (prefixCoveredBy r p st.nets).isSome then { st with covered := st.covered.put p }
  else
    let st := { st with covered := st.covered.delete p }
    let st :=
      if isHostEntry p.1 then st
      else
        let st := (r.order (.retire p) st.pres).foldl (retireStep p) st
        { st with nets := st.nets.put p }
    { st with pres := st.pres.put p, toAdd := st.toAdd ++ [p] }

/-- `planIntervalSet` computes the element changes for a set that refuses overlapping elements. -/
def planIntervalSet (r : RangeOrder) (present covered : EntryMap) (adds dels : List String) : Plan :=
  let st := dels.foldl Plan.removal (Plan.init present covered)
  let (want, covered) := (r.order .covered st.covered).foldl (recoverStep r st.nets)
    (wantOf adds, st.covered)
  let keys := (r.order .want want).mergeSort broader
  keys.foldl (Plan.place r) { st with covered := covered }

/-- `reportWithCovered` returns the present keys plus the covered entries that a present network
still contains, sorted. -/
def reportWithCovered (r : RangeOrder) (present covered : EntryMap) : List String :=
  let nets := present.filter fun p => !isHostEntry p.1
  let out := present ++ covered.filter fun p =>
    !decide (p ∈ present) && (prefixCoveredBy r p nets).isSome
  (out.map Entry.key).mergeSort (fun a b => decide (a ≤ b))

/-! ## The tests are the order -/

theorem isHostEntry_of_lt {p n : Entry} (h : p < n) : isHostEntry n.1 = false := by
  have hlt : n.1.len < p.1.len := Net.len_lt_of_lt h
  have hfam : p.1.family = n.1.family := (show p.1 ≤ n.1 from h.le).1
  have hle := p.1.len_le
  rw [hfam] at hle
  simp only [isHostEntry, decide_eq_false_iff_not]
  omega

theorem lt_iff_containsAddr {p n : Entry} : p < n ↔ n.1.len < p.1.len ∧ containsAddr n p = true := by
  simp only [containsAddr, Bool.and_eq_true, decide_eq_true_eq]
  constructor
  · intro h
    have hle : p.1 ≤ n.1 := h.le
    exact ⟨Net.len_lt_of_lt h, hle.1.symm, Net.mem_of_le hle p.1.first_mem⟩
  · rintro ⟨hlen, -, hmem⟩
    have hle : p.1 ≤ n.1 := Net.le_of_mem_of_len p.1.first_mem hmem hlen.le
    refine lt_of_le_of_ne hle ?_
    rintro rfl
    exact absurd hlen (lt_irrefl _)

theorem retires_iff {p e : Entry} : retires p e = true ↔ e < p := by
  rw [retires, lt_iff_containsAddr, Bool.and_eq_true, decide_eq_true_eq]

theorem prefixCoveredBy_isSome {r : RangeOrder} {p : Entry} {nets : EntryMap} :
    (prefixCoveredBy r p nets).isSome = true ↔ ∃ n ∈ nets, p < n := by
  rw [prefixCoveredBy, List.find?_isSome]
  simp only [RangeOrder.mem_order]
  refine exists_congr fun n => and_congr_right fun _ => ?_
  rw [lt_iff_containsAddr]
  simp only [Bool.and_eq_true, Bool.not_eq_true', Bool.or_eq_false_iff, decide_eq_false_iff_not,
    gt_iff_lt, not_lt]
  constructor
  · rintro ⟨⟨hne, hlen⟩, hc⟩
    refine ⟨lt_of_le_of_ne hlen fun heq => hne ?_, hc⟩
    have hc' := hc
    simp only [containsAddr, Bool.and_eq_true, decide_eq_true_eq] at hc'
    have hle : p.1 ≤ n.1 := Net.le_of_mem_of_len p.1.first_mem hc'.2 heq.le
    exact Subtype.ext (Net.eq_of_le_of_len hle heq.symm).symm
  · rintro ⟨hlen, hc⟩
    refine ⟨⟨?_, hlen.le⟩, hc⟩
    rintro rfl
    exact absurd hlen (lt_irrefl _)

/-! ## One plan -/

/-- The entries named by a list of texts. -/
def named (l : List String) : Set Entry := {e | ∃ s ∈ l, entryOf s = some e}

/-- `nets` holds the networks among the present elements. -/
def Plan.NetsOk (st : Plan) : Prop := ∀ e, e ∈ st.nets ↔ e ∈ st.pres ∧ isHostEntry e.1 = false

theorem Plan.NetsOk.covered_iff {st : Plan} (h : st.NetsOk) {r : RangeOrder} {p : Entry} :
    (prefixCoveredBy r p st.nets).isSome = true ↔ ∃ n ∈ st.pres, p < n := by
  rw [prefixCoveredBy_isSome]
  constructor
  · rintro ⟨n, hn, hlt⟩
    exact ⟨n, ((h n).mp hn).1, hlt⟩
  · rintro ⟨n, hn, hlt⟩
    exact ⟨n, (h n).mpr ⟨hn, isHostEntry_of_lt hlt⟩, hlt⟩

/-- What a plan in progress keeps, for the elements `K` present at the start: `toDel` and `toAdd`
account for `pres`. -/
structure Plan.Tracks (K : EntryMap) (st : Plan) : Prop where
  nets_ok : st.NetsOk
  pres_nodup : st.pres.Nodup
  pres_iff : ∀ e, e ∈ st.pres ↔ (e ∈ K ∧ e ∉ st.toDel) ∨ e ∈ st.toAdd
  toDel_nodup : st.toDel.Nodup
  toDel_sub : ∀ e ∈ st.toDel, e ∈ K

/-- The removals so far are those of `ds`. -/
structure Removed (present covered : EntryMap) (ds : List String) (st : Plan) : Prop where
  pres_iff : ∀ e, e ∈ st.pres ↔ e ∈ present ∧ e ∉ named ds
  nets_iff : ∀ e, e ∈ st.nets ↔ (e ∈ present ∧ e ∉ named ds) ∧ isHostEntry e.1 = false
  covered_iff : ∀ e, e ∈ st.covered ↔ e ∈ covered ∧ e ∉ named ds
  toDel_iff : ∀ e, e ∈ st.toDel ↔ e ∈ present ∧ e ∈ named ds
  pres_nodup : st.pres.Nodup
  toDel_nodup : st.toDel.Nodup
  toAdd_nil : st.toAdd = []

theorem named_append (ds : List String) (d : String) (e : Entry) :
    e ∈ named (ds ++ [d]) ↔ e ∈ named ds ∨ entryOf d = some e := by
  simp only [named, Set.mem_ofPred_eq, List.mem_append, List.mem_singleton]
  constructor
  · rintro ⟨s, hs | rfl, he⟩
    · exact Or.inl ⟨s, hs, he⟩
    · exact Or.inr he
  · rintro (⟨s, hs, he⟩ | he)
    · exact ⟨s, Or.inl hs, he⟩
    · exact ⟨d, Or.inr rfl, he⟩

theorem removed_init {present : EntryMap} (hnd : present.Nodup) (covered : EntryMap) :
    Removed present covered [] (Plan.init present covered) where
  pres_iff e := by simp [Plan.init, named]
  nets_iff e := by simp [Plan.init, named]
  covered_iff e := by simp [Plan.init, named]
  toDel_iff e := by simp [Plan.init, named]
  pres_nodup := hnd
  toDel_nodup := List.nodup_nil
  toAdd_nil := rfl

theorem removed_step {present covered : EntryMap} (hdis : ∀ e ∈ covered, e ∉ present)
    {ds : List String} {st : Plan} (h : Removed present covered ds st) (d : String) :
    Removed present covered (ds ++ [d]) (st.removal d) := by
  have hpres := h.pres_iff
  have hnets := h.nets_iff
  have hcov := h.covered_iff
  have hdel := h.toDel_iff
  rw [Plan.removal]
  cases hd : entryOf d with
  | none =>
    refine ⟨?_, ?_, ?_, ?_, h.pres_nodup, h.toDel_nodup, h.toAdd_nil⟩ <;> intro e <;>
      simp [named_append, hd, hpres, hnets, hcov, hdel]
  | some k =>
    have hmem : ∀ e, e ∈ named (ds ++ [d]) ↔ e ∈ named ds ∨ e = k := by
      intro e
      rw [named_append, hd, Option.some.injEq]
      exact or_congr_right eq_comm
    dsimp only
    split
    · rename_i hk
      have hk' := (hcov k).mp hk
      have hkp := hdis k hk'.1
      refine ⟨?_, ?_, ?_, ?_, h.pres_nodup, h.toDel_nodup, h.toAdd_nil⟩ <;> intro e <;>
        by_cases hek : e = k <;> simp [hmem, hpres, hnets, hcov, hdel, hek, hkp]
    · rename_i hk
      split
      · rename_i hkp
        have hkp' := (hpres k).mp hkp
        have hkcov : k ∉ covered := fun hc => hdis k hc hkp'.1
        refine ⟨?_, ?_, ?_, ?_, h.pres_nodup.filter _, ?_, h.toAdd_nil⟩
        · intro e
          by_cases hek : e = k <;> simp [hmem, hpres, hek]
        · intro e
          by_cases hek : e = k <;> simp [hmem, hnets, hek]
        · intro e
          by_cases hek : e = k <;> simp [hmem, hcov, hek, hkcov]
        · intro e
          by_cases hek : e = k <;> simp [hmem, hdel, hek, hkp'.1]
        · refine List.nodup_append.mpr ⟨h.toDel_nodup, by simp, ?_⟩
          rintro a ha b hb rfl
          rw [List.mem_singleton] at hb
          rw [hb, hdel] at ha
          exact hkp'.2 ha.2
      · rename_i hkp
        rw [hcov] at hk
        rw [hpres] at hkp
        refine ⟨?_, ?_, ?_, ?_, h.pres_nodup, h.toDel_nodup, h.toAdd_nil⟩
        · intro e
          by_cases hek : e = k <;> simp [hmem, hpres, hek]
          · exact fun hp => by_contra fun hn => hkp ⟨hp, hn⟩
        · intro e
          by_cases hek : e = k <;> simp [hmem, hnets, hek]
          · exact fun hp hn => absurd ⟨hp, hn⟩ hkp
        · intro e
          by_cases hek : e = k <;> simp [hmem, hcov, hek]
          · exact fun hp => by_contra fun hn => hk ⟨hp, hn⟩
        · intro e
          by_cases hek : e = k <;> simp [hmem, hdel, hek]
          · exact fun hp => by_contra fun hn => hkp ⟨hp, hn⟩

theorem removed_foldl {present covered : EntryMap} (hdis : ∀ e ∈ covered, e ∉ present)
    {ds : List String} {st : Plan} (h : Removed present covered ds st) (dels : List String) :
    Removed present covered (ds ++ dels) (dels.foldl Plan.removal st) := by
  induction dels generalizing ds st with
  | nil => simpa using h
  | cons d dels ih =>
    rw [List.foldl_cons, List.append_cons]
    exact ih (removed_step hdis h d)

theorem mem_wantOf {adds : List String} {e : Entry} : e ∈ wantOf adds ↔ e ∈ named adds := by
  have hfold : ∀ (adds : List String) (want : EntryMap),
      e ∈ adds.foldl (fun want a => match entryOf a with
        | none => want
        | some p => want.put p) want ↔ e ∈ want ∨ e ∈ named adds := by
    intro adds
    induction adds with
    | nil => intro want; simp [named]
    | cons a adds ih =>
      intro want
      have hcons : e ∈ named (a :: adds) ↔ entryOf a = some e ∨ e ∈ named adds := by
        simp [named]
      rw [List.foldl_cons, ih, hcons]
      cases entryOf a with
      | none => simp
      | some p => simp [or_assoc, eq_comm]
  rw [wantOf, hfold]
  simp

theorem recover_foldl (r : RangeOrder) (nets l : EntryMap) (s : EntryMap × EntryMap) (e : Entry) :
    (e ∈ (l.foldl (recoverStep r nets) s).1 ↔ e ∈ s.1 ∨ (e ∈ l ∧ ¬ ∃ n ∈ nets, e < n)) ∧
      (e ∈ (l.foldl (recoverStep r nets) s).2 ↔ e ∈ s.2 ∧ ¬ (e ∈ l ∧ ¬ ∃ n ∈ nets, e < n)) := by
  induction l generalizing s with
  | nil => simp
  | cons k l ih =>
    have hnone : (prefixCoveredBy r k nets).isNone = true ↔ ¬ ∃ n ∈ nets, k < n := by
      rw [← prefixCoveredBy_isSome (r := r)]
      cases prefixCoveredBy r k nets <;> simp
    rw [List.foldl_cons, (ih _).1, (ih _).2]
    by_cases hc : ∃ n ∈ nets, k < n
    · have hstep : recoverStep r nets s k = s := if_neg fun h => hnone.mp h hc
      rw [hstep]
      by_cases hek : e = k
      · subst hek
        simp [hc]
      · simp [hek]
    · have hstep : recoverStep r nets s k = (s.1.put k, s.2.delete k) := if_pos (hnone.mpr hc)
      rw [hstep]
      by_cases hek : e = k
      · subst hek
        simp only [EntryMap.mem_put, EntryMap.mem_delete, List.mem_cons, hc]
        simp
      · simp [hek]

/-- Retiring moves the elements below `p` from `pres` to `covered`. -/
structure Retired (p : Entry) (l : EntryMap) (st st' : Plan) : Prop where
  pres_iff : ∀ e, e ∈ st'.pres ↔ e ∈ st.pres ∧ ¬ (e ∈ l ∧ e < p)
  nets_iff : ∀ e, e ∈ st'.nets ↔ e ∈ st.nets ∧ ¬ (e ∈ l ∧ e < p)
  covered_iff : ∀ e, e ∈ st'.covered ↔ e ∈ st.covered ∨ (e ∈ l ∧ e < p)
  toDel_eq : st'.toDel = st.toDel ++ l.filter (retires p)
  toAdd_eq : st'.toAdd = st.toAdd
  pres_nodup : st.pres.Nodup → st'.pres.Nodup

theorem retired_foldl (p : Entry) (l : EntryMap) (st : Plan) :
    Retired p l st (l.foldl (retireStep p) st) := by
  induction l generalizing st with
  | nil => constructor <;> simp
  | cons k l ih =>
    have h := ih (retireStep p st k)
    rw [List.foldl_cons]
    by_cases hk : retires p k = true
    · have hlt := retires_iff.mp hk
      have hstep : retireStep p st k = { st with
          toDel := st.toDel ++ [k], pres := st.pres.delete k, nets := st.nets.delete k,
          covered := st.covered.put k } := if_pos hk
      rw [hstep] at h ⊢
      refine ⟨fun e => ?_, fun e => ?_, fun e => ?_, ?_, h.toAdd_eq, fun hnd => ?_⟩
      · rw [h.pres_iff]
        by_cases hek : e = k <;> simp [hek, hlt]
      · rw [h.nets_iff]
        by_cases hek : e = k <;> simp [hek, hlt]
      · rw [h.covered_iff]
        by_cases hek : e = k <;> simp [hek, hlt]
      · rw [h.toDel_eq, List.filter_cons_of_pos hk, List.append_assoc]
        rfl
      · exact h.pres_nodup (hnd.filter _)
    · have hlt : ¬ k < p := fun hlt => hk (retires_iff.mpr hlt)
      have hstep : retireStep p st k = st := if_neg hk
      rw [hstep] at h ⊢
      refine ⟨fun e => ?_, fun e => ?_, fun e => ?_, ?_, h.toAdd_eq, h.pres_nodup⟩
      · rw [h.pres_iff]
        by_cases hek : e = k <;> simp [hek, hlt]
      · rw [h.nets_iff]
        by_cases hek : e = k <;> simp [hek, hlt]
      · rw [h.covered_iff]
        by_cases hek : e = k <;> simp [hek, hlt]
      · rw [h.toDel_eq, List.filter_cons_of_neg (by simpa using hk)]

/-- Putting an uncovered entry into the set. -/
structure Topped (p : Entry) (st st' : Plan) : Prop where
  pres_iff : ∀ e, e ∈ st'.pres ↔ e = p ∨ e ∈ st.pres ∧ ¬ e < p
  nets_iff : ∀ e, e ∈ st'.nets ↔ (e = p ∧ isHostEntry p.1 = false) ∨ e ∈ st.nets ∧ ¬ e < p
  covered_iff : ∀ e, e ∈ st'.covered ↔ (e ∈ st.covered ∧ e ≠ p) ∨ e ∈ st.pres ∧ e < p
  toDel_eq : ∃ l : EntryMap, st'.toDel = st.toDel ++ l ∧ (∀ e, e ∈ l ↔ e ∈ st.pres ∧ e < p) ∧
    (st.pres.Nodup → l.Nodup)
  toAdd_eq : st'.toAdd = st.toAdd ++ [p]
  pres_nodup : st.pres.Nodup → st'.pres.Nodup

theorem EntryMap.nodup_put {m : EntryMap} (h : m.Nodup) (e : Entry) : (m.put e).Nodup := by
  rw [put]
  split
  · exact h
  · rename_i he
    exact List.nodup_append.mpr ⟨h, by simp, fun a ha b hb hab => he (by simp_all)⟩

theorem EntryMap.nodup_delete {m : EntryMap} (h : m.Nodup) (e : Entry) : (m.delete e).Nodup :=
  h.filter _

theorem place_topped {r : RangeOrder} {st : Plan} (hok : st.NetsOk) {p : Entry} (hp : p ∉ st.pres)
    (hcov : ¬ (prefixCoveredBy r p st.nets).isSome = true) : Topped p st (st.place r p) := by
  rw [Plan.place, if_neg hp, if_neg hcov]
  by_cases hhost : isHostEntry p.1 = true
  · have hnone : ∀ e : Entry, ¬ e < p := by
      intro e hlt
      rw [isHostEntry_of_lt hlt] at hhost
      contradiction
    simp only [hhost, if_true]
    refine ⟨fun e => ?_, fun e => ?_, fun e => ?_, ⟨[], by simp, by simp [hnone], by simp⟩, rfl,
      fun hnd => EntryMap.nodup_put hnd p⟩
    · simp [hnone, or_comm]
    · simp [hnone, hhost]
    · simp [hnone]
  · have h := retired_foldl p (r.order (.retire p) st.pres)
      { st with covered := st.covered.delete p }
    simp only [hhost, Bool.false_eq_true, if_false]
    refine ⟨fun e => ?_, fun e => ?_, fun e => ?_, ?_, ?_, fun hnd => ?_⟩
    · rw [EntryMap.mem_put, h.pres_iff, RangeOrder.mem_order, or_comm]
      refine or_congr_right (and_congr_right fun he => ?_)
      simp [he]
    · rw [EntryMap.mem_put, h.nets_iff, RangeOrder.mem_order, or_comm]
      have hh : isHostEntry p.1 = false := by simpa using hhost
      simp only [hh, and_true]
      refine or_congr_right (and_congr_right fun he => ?_)
      simp [((hok e).mp he).1]
    · rw [h.covered_iff, RangeOrder.mem_order, EntryMap.mem_delete]
    · refine ⟨_, h.toDel_eq, fun e => ?_, fun hnd => ?_⟩
      · rw [List.mem_filter, RangeOrder.mem_order, retires_iff]
      · exact ((r.perm _ _).nodup_iff.mpr hnd).filter _
    · show (_ : Plan).toAdd ++ [p] = _
      rw [h.toAdd_eq]
    · exact EntryMap.nodup_put (h.pres_nodup hnd) p

theorem Topped.netsOk {p : Entry} {st st' : Plan} (h : Topped p st st') (hok : st.NetsOk) :
    st'.NetsOk := by
  intro e
  rw [h.nets_iff, h.pres_iff, hok e]
  by_cases hep : e = p
  · subst hep
    simp
  · simp only [hep, false_and, false_or]
    tauto

theorem Topped.tracks {p : Entry} {st st' : Plan} (h : Topped p st st') {K : EntryMap}
    (ht : st.Tracks K) (hadd : ∀ e ∈ st.toAdd, e.1.len ≤ p.1.len) : st'.Tracks K := by
  obtain ⟨l, hl, hmem, hnd⟩ := h.toDel_eq
  -- a retired element is narrower than everything added so far, so it was there from the start
  have hold : ∀ e, e ∈ st.pres → e < p → e ∈ K ∧ e ∉ st.toDel ∧ e ∉ st.toAdd := by
    intro e he hlt
    have hnot : e ∉ st.toAdd := fun ha =>
      absurd (hadd e ha) (not_le.mpr (Net.len_lt_of_lt hlt))
    rcases (ht.pres_iff e).mp he with hK | ha
    · exact ⟨hK.1, hK.2, hnot⟩
    · exact absurd ha hnot
  refine ⟨h.netsOk ht.nets_ok, h.pres_nodup ht.pres_nodup, fun e => ?_, ?_, ?_⟩
  · rw [h.pres_iff, h.toAdd_eq, hl, ht.pres_iff]
    simp only [List.mem_append, List.mem_singleton, hmem]
    by_cases hep : e = p
    · simp [hep]
    · by_cases hlt : e < p
      · by_cases he : e ∈ st.pres
        · have := hold e he hlt
          simp [hep, hlt, he, this.2.2]
        · have he' := mt (ht.pres_iff e).mpr he
          have : e ∉ st.toAdd := fun ha => he' (Or.inr ha)
          have hKd : ¬ (e ∈ K ∧ e ∉ st.toDel) := fun hK => he' (Or.inl hK)
          simp only [hep, hlt, he, this, not_true_eq_false, and_false, false_and, or_self, false_iff,
            or_false]
          exact hKd
      · simp [hep, hlt]
  · rw [hl]
    refine List.nodup_append.mpr ⟨ht.toDel_nodup, hnd ht.pres_nodup, ?_⟩
    rintro a ha b hb rfl
    rw [hmem] at hb
    exact (hold a hb.1 hb.2).2.1 ha
  · intro e he
    rw [hl, List.mem_append, hmem] at he
    rcases he with he | he
    · exact ht.toDel_sub e he
    · exact (hold e he.1 he.2).1

/-- What the loop over the wanted entries keeps, the entries `ps` being placed. -/
structure Placing (K : EntryMap) (S : Set Entry) (ps : List Entry) (st : Plan) : Prop where
  tracks : st.Tracks K
  covers : Covers {e | e ∈ st.pres} {e | e ∈ st.covered}
  all_iff : ∀ e, (e ∈ st.pres ∨ e ∈ st.covered) ↔ e ∈ S ∨ e ∈ ps
  toAdd_sub : ∀ e ∈ st.toAdd, e ∈ ps

theorem placing_step {r : RangeOrder} {K : EntryMap} {S : Set Entry} {ps : List Entry} {st : Plan}
    (h : Placing K S ps st) {p : Entry} (hle : ∀ e ∈ ps, e.1.len ≤ p.1.len) :
    Placing K S (ps ++ [p]) (st.place r p) := by
  have hall : ∀ e, (e ∈ S ∨ e ∈ ps ++ [p]) ↔ (e ∈ st.pres ∨ e ∈ st.covered) ∨ e = p := by
    intro e
    rw [h.all_iff, List.mem_append, List.mem_singleton, or_assoc]
  by_cases hp : p ∈ st.pres
  · have hpc : p ∉ st.covered := fun hc => h.covers.disjoint hc hp
    have hdel : st.covered.delete p = st.covered := List.filter_eq_self.mpr fun e he => by
      simpa using fun hep : e = p => hpc (hep ▸ he)
    have hst : st.place r p = st := by rw [Plan.place, if_pos hp, hdel]
    rw [hst]
    refine ⟨h.tracks, h.covers, fun e => ?_, fun e he => by simp [h.toAdd_sub e he]⟩
    rw [hall]
    constructor
    · exact Or.inl
    · rintro (he | rfl)
      · exact he
      · exact Or.inl hp
  · by_cases hcov : (prefixCoveredBy r p st.nets).isSome = true
    · obtain ⟨y, hy, hlt⟩ := h.tracks.nets_ok.covered_iff.mp hcov
      have hst : st.place r p = { st with covered := st.covered.put p } := by
        rw [Plan.place, if_neg hp, if_pos hcov]
      rw [hst]
      refine ⟨⟨h.tracks.nets_ok, h.tracks.pres_nodup, h.tracks.pres_iff, h.tracks.toDel_nodup,
        h.tracks.toDel_sub⟩, ⟨h.covers.antichain, ?_⟩, fun e => ?_,
        fun e he => by simp [h.toAdd_sub e he]⟩
      · intro e he
        rcases EntryMap.mem_put.mp he with he | rfl
        · exact h.covers.below e he
        · exact ⟨y, hy, hlt⟩
      · rw [hall, or_assoc]
        exact or_congr_right EntryMap.mem_put
    · have htop := place_topped h.tracks.nets_ok hp hcov
      have hnone : ¬ ∃ n ∈ st.pres, p < n := fun hn => hcov (h.tracks.nets_ok.covered_iff.mpr hn)
      have hadd : ∀ e ∈ st.toAdd, e.1.len ≤ p.1.len := fun e he => hle e (h.toAdd_sub e he)
      have hcovers := h.covers.insert (x := p) (by
        intro y hy hpy
        rcases lt_or_eq_of_le hpy with hlt | rfl
        · exact hnone ⟨y, hy, hlt⟩
        · exact hp hy)
      refine ⟨htop.tracks h.tracks hadd, ?_, fun e => ?_, fun e he => ?_⟩
      · convert hcovers using 1
        · ext e
          exact htop.pres_iff e
        · ext e
          exact htop.covered_iff e
      · rw [hall, htop.pres_iff, htop.covered_iff]
        by_cases hep : e = p
        · simp [hep]
        · by_cases hlt : e < p
          · simp only [hep, hlt, not_true_eq_false, and_false, or_false, false_or, ne_eq,
              not_false_eq_true, and_true]
            exact or_comm
          · simp only [hep, hlt, not_false_eq_true, and_true, false_or, ne_eq, and_false, or_false]
      · rw [htop.toAdd_eq, List.mem_append, List.mem_singleton] at he
        rcases he with he | rfl
        · simp [h.toAdd_sub e he]
        · simp

theorem placing_foldl {r : RangeOrder} {K : EntryMap} {S : Set Entry} {ps : List Entry} {st : Plan}
    (h : Placing K S ps st) (qs : List Entry)
    (hsorted : (ps ++ qs).Pairwise fun a b => a.1.len ≤ b.1.len) :
    Placing K S (ps ++ qs) (qs.foldl (Plan.place r) st) := by
  induction qs generalizing ps st with
  | nil => simpa using h
  | cons q qs ih =>
    have hle : ∀ e ∈ ps, e.1.len ≤ q.1.len := fun e he =>
      (List.pairwise_append.mp hsorted).2.2 e he q (by simp)
    rw [List.foldl_cons, List.append_cons]
    refine ih (placing_step h hle) ?_
    rwa [← List.append_cons]

theorem broader_trans (a b c : Entry) (hab : broader a b = true) (hbc : broader b c = true) :
    broader a c = true := by
  simp only [broader, Bool.or_eq_true, Bool.and_eq_true, decide_eq_true_eq] at *
  rcases hab with hab | ⟨hab, hkab⟩
  · rcases hbc with hbc | ⟨hbc, -⟩
    · exact Or.inl (hab.trans hbc)
    · exact Or.inl (hbc ▸ hab)
  · rcases hbc with hbc | ⟨hbc, hkbc⟩
    · exact Or.inl (hab ▸ hbc)
    · exact Or.inr ⟨hab.trans hbc, hkab.trans hkbc⟩

theorem broader_total (a b : Entry) : (broader a b || broader b a) = true := by
  simp only [broader, Bool.or_eq_true, Bool.and_eq_true, decide_eq_true_eq]
  rcases lt_trichotomy a.1.len b.1.len with h | h | h
  · exact Or.inl (Or.inl h)
  · rcases le_total a.key b.key with hk | hk
    · exact Or.inl (Or.inr ⟨h, hk⟩)
    · exact Or.inr (Or.inr ⟨h.symm, hk⟩)
  · exact Or.inr (Or.inl h)

theorem sorted_broader (l : List Entry) :
    (l.mergeSort broader).Pairwise fun a b => a.1.len ≤ b.1.len := by
  refine (List.pairwise_mergeSort broader_trans broader_total l).imp ?_
  intro a b h
  simp only [broader, Bool.or_eq_true, Bool.and_eq_true, decide_eq_true_eq] at h
  rcases h with h | ⟨h, -⟩
  · exact h.le
  · exact h.le

/-- What a finished plan gives. -/
structure PlanSpec (present : EntryMap) (S' : Set Entry) (st : Plan) : Prop where
  covers : Covers {e | e ∈ st.pres} {e | e ∈ st.covered}
  all_iff : ∀ e, (e ∈ st.pres ∨ e ∈ st.covered) ↔ e ∈ S'
  pres_iff : ∀ e, e ∈ st.pres ↔ (e ∈ present ∧ e ∉ st.toDel) ∨ e ∈ st.toAdd
  pres_nodup : st.pres.Nodup
  toDel_nodup : st.toDel.Nodup
  toDel_sub : ∀ e ∈ st.toDel, e ∈ present

/-- A plan keeps the cover, does what was asked for and accounts for it, in whatever order the maps
are visited. -/
theorem planIntervalSet_spec (r : RangeOrder) {present covered : EntryMap}
    (hcovers : Covers {e | e ∈ present} {e | e ∈ covered}) (hnd : present.Nodup)
    (adds dels : List String) :
    PlanSpec present {e | ((e ∈ present ∨ e ∈ covered) ∧ e ∉ named dels) ∨ e ∈ named adds}
      (planIntervalSet r present covered adds dels) := by
  have hrem := removed_foldl (fun e he => hcovers.disjoint he) (removed_init hnd covered)
    dels
  rw [List.nil_append] at hrem
  rw [planIntervalSet]
  generalize dels.foldl Plan.removal (Plan.init present covered) = st at hrem
  have hrec := fun e => recover_foldl r st.nets (r.order .covered st.covered)
    (wantOf adds, st.covered) e
  generalize (r.order .covered st.covered).foldl (recoverStep r st.nets) (wantOf adds, st.covered) =
    wc at hrec
  obtain ⟨want, cov⟩ := wc
  simp only [RangeOrder.mem_order, mem_wantOf, hrem.covered_iff] at hrec
  have hnets : st.NetsOk := fun e => by rw [hrem.nets_iff, hrem.pres_iff]
  have hcov : ∀ e, e ∈ cov ↔ (e ∈ covered ∧ e ∉ named dels) ∧ ∃ n ∈ st.pres, e < n := by
    intro e
    rw [(hrec e).2, ← hnets.covered_iff (r := r), prefixCoveredBy_isSome]
    generalize (∃ n ∈ st.nets, e < n) = c
    tauto
  have hinit : Placing present
      {e | e ∈ st.pres ∨ e ∈ cov} [] { st with covered := cov } := by
    refine ⟨⟨hnets, hrem.pres_nodup, fun e => ?_, hrem.toDel_nodup, fun e he => ?_⟩,
      ?_, fun e => by simp, fun e he => ?_⟩
    · rw [hrem.pres_iff, hrem.toDel_iff, hrem.toAdd_nil]
      simp only [List.not_mem_nil, or_false]
      tauto
    · exact ((hrem.toDel_iff e).mp he).1
    · exact hcovers.mono (fun e he => ((hrem.pres_iff e).mp he).1) fun e he => ((hcov e).mp he).2
    · have he' : e ∈ st.toAdd := he
      rw [hrem.toAdd_nil] at he'
      contradiction
  have hmem : ∀ e, e ∈ (r.order .want want).mergeSort broader ↔ e ∈ want := by
    intro e
    rw [List.mem_mergeSort, RangeOrder.mem_order]
  have hplaced := placing_foldl (r := r) hinit ((r.order .want want).mergeSort broader)
    (sorted_broader _)
  refine ⟨hplaced.covers, fun e => ?_, hplaced.tracks.pres_iff, hplaced.tracks.pres_nodup,
    hplaced.tracks.toDel_nodup, hplaced.tracks.toDel_sub⟩
  rw [hplaced.all_iff, List.nil_append, hmem, (hrec e).1]
  simp only [Set.mem_ofPred_eq, hrem.pres_iff, hcov, ← prefixCoveredBy_isSome (r := r),
    hnets.covered_iff]
  generalize (∃ n, (n ∈ present ∧ n ∉ named dels) ∧ e < n) = c
  tauto

theorem mem_reportWithCovered (r : RangeOrder) {present covered : EntryMap}
    (hcovers : Covers {e | e ∈ present} {e | e ∈ covered}) {s : String} :
    s ∈ reportWithCovered r present covered ↔ ∃ e, (e ∈ present ∨ e ∈ covered) ∧ e.key = s := by
  have hnets : (Plan.init present covered).NetsOk := fun e => by simp [Plan.init]
  have hcov : ∀ e, (prefixCoveredBy r e (present.filter fun p => !isHostEntry p.1)).isSome = true ↔
      ∃ n ∈ present, e < n := fun e => hnets.covered_iff
  simp only [reportWithCovered, List.mem_mergeSort, List.mem_map, List.mem_append, List.mem_filter,
    Bool.and_eq_true, Bool.not_eq_true', decide_eq_false_iff_not, hcov]
  refine exists_congr fun e => and_congr_left fun _ => or_congr_right ?_
  constructor
  · exact fun h => h.1
  · exact fun h => ⟨h, hcovers.disjoint h, hcovers.below e h⟩

end Obliguard.Agent

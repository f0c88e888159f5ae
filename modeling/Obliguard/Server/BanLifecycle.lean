import Mathlib.Data.Int.ConditionallyCompleteOrder
import Mathlib.Order.Bounds.Basic
import Mathlib.Order.WithBot
import Obliguard.Lib.Keyed
import Obliguard.Lib.Window
import Obliguard.Server.Schema

/-!
# The migration of the ban lifecycle

`up` of migration 032 over the tables `ip_bans` and `ip_ban_exclusions` as they are before it. It ranks the active
rows of each key by age, gives the oldest the longest expiry of the others, points their exclusions to it and deletes
them, so that a unique index can be made (`up_lossless`).

A row of this time has no provenance yet and carries `banned_at`; `cidr_prefix` may be any number, and `ip` a network or
a host.
-/

namespace Obliguard.Server

open Window

/-! ## Tables -/

/-- A row of `ip_bans`. -/
structure BanRecord where
  id : Nat
  ip : Inet
  cidrPrefix : Option Int
  reason : Option String
  banType : BanType
  scope : Scope
  scopeId : Option Int
  tenantId : Option Int
  originTenantId : Option Nat
  originApp : Option String
  bannedByUserId : Option Nat
  bannedAt : Int
  expiresAt : Option Int
  isActive : Bool
  liftedAt : Option Int
deriving DecidableEq

/-- `KEY`. -/
def banKey (b : BanRecord) : Inet × Int × Scope × Int × Int :=
  (b.ip, b.cidrPrefix.getD b.ip.masklen, b.scope, b.scopeId.getD 0, b.tenantId.getD 0)

/-- A row of `ip_ban_exclusions`. -/
structure ExclusionRecord where
  banId : Nat
  tenantId : Nat
  createdBy : Option Nat
  createdAt : Int
deriving DecidableEq

def exclusionKey (e : ExclusionRecord) : Nat × Nat := (e.banId, e.tenantId)

/-- The condition of the index `idx_ip_bans_active_uniq`. -/
def ActiveUnique (bans : Keyed BanRecord.id) : Prop :=
  ∀ a ∈ bans.rows, ∀ b ∈ bans.rows, a.isActive = true → b.isActive = true → banKey a = banKey b → a = b

instance (bans : Keyed BanRecord.id) : Decidable (ActiveUnique bans) :=
  inferInstanceAs (Decidable (∀ a ∈ bans.rows, ∀ b ∈ bans.rows, _ → _ → _ → _))

/-- The two tables, with the constraints of the database. -/
structure BanTables where
  bans : Keyed BanRecord.id
  exclusions : Keyed exclusionKey
  /-- Whether the column `lifted_at` is there; a row without it reads as `none`. -/
  hasLiftedAt : Bool
  /-- Whether the index on active rows is there. -/
  hasActiveIndex : Bool
  references : ∀ e ∈ exclusions.rows, ∃ b ∈ bans.rows, b.id = e.banId
  lifted : hasLiftedAt = false → ∀ b ∈ bans.rows, b.liftedAt = none
  unique : hasActiveIndex = true → ActiveUnique bans

/-! ## The statements -/

/-- `ORDER BY banned_at ASC, id ASC`. -/
def older (a b : BanRecord) : Bool :=
  decide (a.bannedAt < b.bannedAt ∨ a.bannedAt = b.bannedAt ∧ a.id ≤ b.id)

/-- `_ban_dedupe`: the duplicates of the oldest active row of each key, with its id. -/
def banDedupe (rows : List BanRecord) : List (Nat × Nat) :=
  let active := rows.filter (·.isActive)
  (active.filter fun b => 1 < rowNumber banKey older active b).filterMap fun b =>
    (firstValue banKey older active b).map fun keep => (b.id, keep.id)

/-- The rows of `_ban_dedupe d JOIN ip_bans b` in the group of a kept row. -/
def duplicatesOf (bans : Keyed BanRecord.id) (dedupe : List (Nat × Nat)) (keepId : Nat) : List BanRecord :=
  (dedupe.filter (·.2 = keepId)).filterMap fun d => bans.find d.1

def anyPermanent (group : List BanRecord) : Bool := group.any (·.expiresAt.isNone)

def maxExpires (group : List BanRecord) : Option Int := (group.filterMap (·.expiresAt)).max?

/-- The `WHERE` of the update, for a kept row and its group. -/
def isExtended (group : List BanRecord) (k : BanRecord) : Bool :=
  k.expiresAt.any fun e => !group.isEmpty && (anyPermanent group || (maxExpires group).any (e < ·))

def extendKept (bans : Keyed BanRecord.id) (dedupe : List (Nat × Nat)) : Keyed BanRecord.id :=
  bans.update (fun k => isExtended (duplicatesOf bans dedupe k.id) k)
    (fun k => { k with
      expiresAt := if anyPermanent (duplicatesOf bans dedupe k.id) then none
        else maxExpires (duplicatesOf bans dedupe k.id) })
    fun _ => rfl

/-- `INSERT ... ON CONFLICT DO NOTHING`. -/
def insertIgnore (exclusions : Keyed exclusionKey) (e : ExclusionRecord) : Keyed exclusionKey :=
  if h : exclusions.find (exclusionKey e) = none then exclusions.insert e h else exclusions

/-- The exclusions of the duplicates, with the kept row in the place of each; of two of one tenant the first stays. -/
def repointed (exclusions : List ExclusionRecord) (dedupe : List (Nat × Nat)) : List ExclusionRecord :=
  exclusions.flatMap fun e => (dedupe.filter (·.1 = e.banId)).map fun d => { e with banId := d.2 }

def repoint (exclusions : Keyed exclusionKey) (dedupe : List (Nat × Nat)) : Keyed exclusionKey :=
  (repointed exclusions.rows dedupe).foldl insertIgnore exclusions

def isDuplicate (dedupe : List (Nat × Nat)) (id : Nat) : Bool := dedupe.any (·.1 = id)

/-- `ip_bans` after the statements, none of which runs without a duplicate. -/
def dedupedBans (bans : Keyed BanRecord.id) : Keyed BanRecord.id :=
  let dedupe := banDedupe bans.rows
  if dedupe.length > 0 then (extendKept bans dedupe).delete fun b => isDuplicate dedupe b.id else bans

/-- `ip_ban_exclusions` after them: the rows of a deleted ban go with it. -/
def dedupedExclusions (t : BanTables) : Keyed exclusionKey :=
  let dedupe := banDedupe t.bans.rows
  if dedupe.length > 0 then (repoint t.exclusions dedupe).delete fun e => isDuplicate dedupe e.banId
  else t.exclusions

/-! ## The oldest active row of a key -/

theorem older_trans (a b c : BanRecord) (hab : older a b = true) (hbc : older b c = true) : older a c = true := by
  rw [older, decide_eq_true_eq] at *
  omega

theorem older_total (a b : BanRecord) : (older a b || older b a) = true := by
  rw [Bool.or_eq_true, older, older, decide_eq_true_eq, decide_eq_true_eq]
  omega

section oldest
variable {bans : Keyed BanRecord.id} {a b : BanRecord}

theorem eq_of_id (ha : a ∈ bans.rows) (hb : b ∈ bans.rows) (h : a.id = b.id) : a = b :=
  List.inj_on_of_nodup_map bans.nodup ha hb h

/-- The kept row of its key. -/
structure Oldest (bans : Keyed BanRecord.id) (a : BanRecord) : Prop where
  mem : a ∈ bans.rows
  active : a.isActive = true
  least : ∀ b ∈ bans.rows, b.isActive = true → banKey b = banKey a → older a b = true

theorem Oldest.unique (ha : Oldest bans a) (hb : Oldest bans b) (hkey : banKey a = banKey b) : a = b := by
  have hab := ha.least b hb.mem hb.active hkey.symm
  have hba := hb.least a ha.mem ha.active hkey
  rw [older, decide_eq_true_eq] at hab hba
  exact eq_of_id ha.mem hb.mem (by omega)

theorem exists_oldest (hb : b ∈ bans.rows) (hactive : b.isActive = true) :
    ∃ a, firstValue banKey older (bans.rows.filter (·.isActive)) b = some a ∧ Oldest bans a ∧
      banKey a = banKey b := by
  have hmem : b ∈ bans.rows.filter (·.isActive) := List.mem_filter.mpr ⟨hb, hactive⟩
  obtain ⟨a, hfirst, ha, hkey, hleast⟩ : ∃ a, firstValue banKey older (bans.rows.filter (·.isActive)) b = some a ∧
      a ∈ bans.rows.filter (·.isActive) ∧ banKey a = banKey b ∧
      ∀ c ∈ bans.rows.filter (·.isActive), banKey c = banKey b → older a c = true :=
    firstValue_spec older_trans older_total hmem
  obtain ⟨ha, haactive⟩ := List.mem_filter.mp ha
  refine ⟨a, hfirst, ⟨ha, haactive, ?_⟩, hkey⟩
  intro c hc hcactive hckey
  exact hleast c (List.mem_filter.mpr ⟨hc, hcactive⟩) (hckey.trans hkey)

/-- An active row that is not the oldest of its key. -/
structure Duplicate (bans : Keyed BanRecord.id) (keep b : BanRecord) : Prop where
  mem : b ∈ bans.rows
  active : b.isActive = true
  oldest : Oldest bans keep
  key : banKey b = banKey keep
  ne : b ≠ keep

theorem mem_banDedupe {d : Nat × Nat} :
    d ∈ banDedupe bans.rows ↔ ∃ keep b, Duplicate bans keep b ∧ d = (b.id, keep.id) := by
  rw [banDedupe, List.mem_filterMap]
  constructor
  · rintro ⟨b, hb, hd⟩
    obtain ⟨hb, hrank⟩ := List.mem_filter.mp hb
    rw [decide_eq_true_eq, one_lt_rowNumber hb] at hrank
    obtain ⟨hb, hactive⟩ := List.mem_filter.mp hb
    obtain ⟨keep, hfirst, hkeep, hkey⟩ := exists_oldest hb hactive
    rw [hfirst] at hrank hd
    refine ⟨keep, b, ⟨hb, hactive, hkeep, hkey.symm, ?_⟩, (Option.some.inj hd).symm⟩
    rintro rfl
    exact hrank rfl
  · rintro ⟨keep, b, hdup, rfl⟩
    obtain ⟨keep', hfirst, hkeep', hkey⟩ := exists_oldest hdup.mem hdup.active
    obtain rfl := hkeep'.unique hdup.oldest (hkey.trans hdup.key)
    have hmem : b ∈ bans.rows.filter (·.isActive) := List.mem_filter.mpr ⟨hdup.mem, hdup.active⟩
    refine ⟨b, List.mem_filter.mpr ⟨hmem, ?_⟩, ?_⟩
    · rw [decide_eq_true_eq, one_lt_rowNumber hmem, hfirst, ne_eq, Option.some.injEq]
      exact hdup.ne.symm
    · rw [hfirst]
      rfl

theorem isDuplicate_iff (hb : b ∈ bans.rows) :
    isDuplicate (banDedupe bans.rows) b.id = true ↔ ∃ keep, Duplicate bans keep b := by
  rw [isDuplicate, List.any_eq_true]
  constructor
  · rintro ⟨d, hd, hid⟩
    obtain ⟨keep, b', hdup, rfl⟩ := mem_banDedupe.mp hd
    rw [decide_eq_true_eq] at hid
    obtain rfl := eq_of_id hdup.mem hb hid
    exact ⟨keep, hdup⟩
  · rintro ⟨keep, hdup⟩
    exact ⟨_, mem_banDedupe.mpr ⟨keep, b, hdup, rfl⟩, decide_eq_true rfl⟩

theorem Oldest.not_duplicate {keep : BanRecord} (ha : Oldest bans a) : ¬ Duplicate bans keep a := by
  intro hdup
  exact hdup.ne (ha.unique hdup.oldest hdup.key)

theorem stays_iff (hb : b ∈ bans.rows) (hactive : b.isActive = true) :
    isDuplicate (banDedupe bans.rows) b.id = false ↔ Oldest bans b := by
  rw [← Bool.not_eq_true, isDuplicate_iff hb]
  constructor
  · intro hnot
    obtain ⟨keep, -, hkeep, hkey⟩ := exists_oldest hb hactive
    by_cases hne : b = keep
    · rw [hne]
      exact hkeep
    · exact absurd ⟨keep, hb, hactive, hkeep, hkey.symm, hne⟩ hnot
  · rintro hb ⟨keep, hdup⟩
    exact hb.not_duplicate hdup

theorem mem_duplicatesOf {keep : BanRecord} (hkeep : Oldest bans keep) :
    b ∈ duplicatesOf bans (banDedupe bans.rows) keep.id ↔ Duplicate bans keep b := by
  rw [duplicatesOf, List.mem_filterMap]
  constructor
  · rintro ⟨d, hd, hfind⟩
    obtain ⟨hd, hid⟩ := List.mem_filter.mp hd
    obtain ⟨keep', b', hdup, rfl⟩ := mem_banDedupe.mp hd
    rw [decide_eq_true_eq] at hid
    obtain rfl := eq_of_id hdup.oldest.mem hkeep.mem hid
    obtain ⟨hb, hbid⟩ := Keyed.find_eq_some.mp hfind
    obtain rfl := eq_of_id hdup.mem hb hbid.symm
    exact hdup
  · intro hdup
    refine ⟨(b.id, keep.id), List.mem_filter.mpr ⟨?_, decide_eq_true rfl⟩, ?_⟩
    · exact mem_banDedupe.mpr ⟨keep, b, hdup, rfl⟩
    · exact Keyed.find_eq_some.mpr ⟨hdup.mem, rfl⟩

theorem duplicatesOf_eq_nil (hb : b ∈ bans.rows) (hnot : ¬ Oldest bans b) :
    duplicatesOf bans (banDedupe bans.rows) b.id = [] := by
  rw [duplicatesOf, List.filterMap_eq_nil_iff]
  intro d hd
  obtain ⟨hd, hid⟩ := List.mem_filter.mp hd
  obtain ⟨keep, b', hdup, rfl⟩ := mem_banDedupe.mp hd
  rw [decide_eq_true_eq] at hid
  obtain rfl := eq_of_id hdup.oldest.mem hb hid
  exact absurd hdup.oldest hnot

end oldest

/-! ## The expiry of a kept row -/

/-- When a ban ends, never where it is permanent. -/
def BanRecord.expiry (b : BanRecord) : WithTop Int := b.expiresAt

section expiry
variable {group : List BanRecord} {k b : BanRecord}

theorem expiry_of_none (h : b.expiresAt = none) : b.expiry = ⊤ := h

theorem expiry_of_some {e : Int} (h : b.expiresAt = some e) : b.expiry = (e : WithTop Int) := h

theorem anyPermanent_iff : anyPermanent group = true ↔ ∃ b ∈ group, b.expiresAt = none := by
  rw [anyPermanent, List.any_eq_true]
  simp only [Option.isNone_iff_eq_none]

theorem maxExpires_spec (hgroup : group ≠ []) (h : anyPermanent group = false) :
    ∃ m, maxExpires group = some m ∧ (∃ b ∈ group, b.expiresAt = some m) ∧
      ∀ b ∈ group, ∀ e, b.expiresAt = some e → e ≤ m := by
  have htimed : ∀ b ∈ group, ∃ e, b.expiresAt = some e := by
    intro b hb
    rw [← Option.ne_none_iff_exists']
    intro hnone
    rw [anyPermanent_iff.mpr ⟨b, hb, hnone⟩] at h
    contradiction
  cases hmax : maxExpires group with
  | none =>
    obtain ⟨b, hb⟩ := List.exists_mem_of_ne_nil group hgroup
    obtain ⟨e, he⟩ := htimed b hb
    rw [maxExpires, List.max?_eq_none_iff, List.filterMap_eq_nil_iff] at hmax
    exact absurd (he.symm.trans (hmax b hb)) (Option.some_ne_none e)
  | some m =>
    rw [maxExpires, List.max?_eq_some_iff] at hmax
    obtain ⟨hm, hle⟩ := hmax
    refine ⟨m, rfl, List.mem_filterMap.mp hm, ?_⟩
    intro b hb e he
    exact hle e (List.mem_filterMap.mpr ⟨b, hb, he⟩)

/-- The kept row after the update. -/
def extended (group : List BanRecord) (k : BanRecord) : BanRecord :=
  if isExtended group k then { k with
    expiresAt := if anyPermanent group then none else maxExpires group }
  else k

theorem isGreatest_extended :
    IsGreatest {e | ∃ b ∈ k :: group, b.expiry = e} (extended group k).expiry := by
  rw [extended]
  by_cases hext : isExtended group k = true
  · -- the group ends later
    rw [if_pos hext]
    rw [isExtended, Option.any_eq_true] at hext
    obtain ⟨e, he, hlonger⟩ := hext
    rw [Bool.and_eq_true, Bool.not_eq_true', List.isEmpty_eq_false_iff, Bool.or_eq_true] at hlonger
    obtain ⟨hgroup, hlonger⟩ := hlonger
    by_cases hany : anyPermanent group = true
    · obtain ⟨b, hb, hnone⟩ := anyPermanent_iff.mp hany
      rw [if_pos hany]
      exact ⟨⟨b, List.mem_cons_of_mem k hb, hnone⟩, fun x _ => le_top⟩
    · rw [if_neg hany]
      obtain ⟨m, hmax, ⟨b, hb, hbm⟩, hle⟩ := maxExpires_spec hgroup (Bool.eq_false_of_not_eq_true hany)
      have hem : e < m := by
        have := hlonger.resolve_left hany
        rw [hmax, Option.any_some, decide_eq_true_eq] at this
        exact this
      have hkept : ({ k with expiresAt := maxExpires group } : BanRecord).expiry = (m : WithTop Int) := hmax
      rw [hkept]
      refine ⟨⟨b, List.mem_cons_of_mem k hb, expiry_of_some hbm⟩, ?_⟩
      · rintro x ⟨c, hc, rfl⟩
        rcases List.mem_cons.mp hc with rfl | hc
        · rw [expiry_of_some he]
          exact WithTop.coe_le_coe.mpr (le_of_lt hem)
        · cases hce : c.expiresAt with
          | none =>
            rw [anyPermanent_iff.mpr ⟨c, hc, hce⟩] at hany
            contradiction
          | some x =>
            rw [expiry_of_some hce]
            exact WithTop.coe_le_coe.mpr (hle c hc x hce)
  · -- the kept row ends last
    rw [if_neg hext]
    refine ⟨⟨k, List.mem_cons_self, rfl⟩, ?_⟩
    rintro x ⟨c, hc, rfl⟩
    rcases List.mem_cons.mp hc with rfl | hc
    · exact le_refl _
    · cases he : k.expiresAt with
      | none =>
        rw [expiry_of_none he]
        exact le_top
      | some e =>
        have hgroup : group ≠ [] := List.ne_nil_of_mem hc
        rw [isExtended, he, Option.any_some, Bool.and_eq_true, Bool.not_eq_true', List.isEmpty_eq_false_iff,
          Bool.or_eq_true] at hext
        have hnot : ¬ (anyPermanent group = true ∨ (maxExpires group).any (e < ·) = true) :=
          fun h => hext ⟨hgroup, h⟩
        rw [not_or] at hnot
        obtain ⟨m, hmax, -, hle⟩ := maxExpires_spec hgroup (Bool.eq_false_of_not_eq_true hnot.1)
        have hme : m ≤ e := by
          have := hnot.2
          rw [hmax, Option.any_some, decide_eq_true_eq] at this
          omega
        cases hce : c.expiresAt with
        | none => exact absurd (anyPermanent_iff.mpr ⟨c, hc, hce⟩) hnot.1
        | some x =>
          rw [expiry_of_some hce, expiry_of_some he]
          exact WithTop.coe_le_coe.mpr (le_trans (hle c hc x hce) hme)

end expiry

/-! ## The tables after the statements -/

section deduped
variable {bans : Keyed BanRecord.id} {t : BanTables} {a b r : BanRecord}

theorem extended_id (group : List BanRecord) (k : BanRecord) : (extended group k).id = k.id := by
  rw [extended]
  split
  · rfl
  · rfl

theorem extended_active (group : List BanRecord) (k : BanRecord) :
    (extended group k).isActive = k.isActive := by
  rw [extended]
  split
  · rfl
  · rfl

theorem banKey_extended (group : List BanRecord) (k : BanRecord) : banKey (extended group k) = banKey k := by
  rw [extended]
  split
  · rfl
  · rfl

theorem extended_eq (group : List BanRecord) (k : BanRecord) :
    extended group k = { k with expiresAt := (extended group k).expiresAt } := by
  rw [extended]
  split
  · rfl
  · rfl

theorem extended_nil (k : BanRecord) : extended [] k = k := by
  rw [extended, if_neg]
  rw [isExtended, Option.any_eq_true]
  rintro ⟨e, -, h⟩
  exact Bool.false_ne_true h

/-- What becomes of a row that stays. -/
def after (bans : Keyed BanRecord.id) (b : BanRecord) : BanRecord :=
  extended (duplicatesOf bans (banDedupe bans.rows) b.id) b

theorem mem_dedupedBans : r ∈ (dedupedBans bans).rows ↔
    ∃ b ∈ bans.rows, isDuplicate (banDedupe bans.rows) b.id = false ∧ after bans b = r := by
  rw [dedupedBans]
  split
  · rw [Keyed.mem_delete, extendKept, Keyed.update]
    dsimp only
    rw [List.mem_map]
    constructor
    · rintro ⟨⟨b, hb, hr⟩, hstays⟩
      have hid : r.id = b.id := by
        rw [← hr]
        exact extended_id _ b
      rw [hid] at hstays
      exact ⟨b, hb, hstays, hr⟩
    · rintro ⟨b, hb, hstays, hr⟩
      refine ⟨⟨b, hb, hr⟩, ?_⟩
      rw [← hr, after, extended_id]
      exact hstays
  · rename_i hnone
    have hnil : banDedupe bans.rows = [] := List.length_eq_zero_iff.mp (Nat.eq_zero_of_not_pos hnone)
    have hafter : ∀ b, after bans b = b := by
      intro b
      rw [after, hnil]
      exact extended_nil b
    constructor
    · intro hr
      refine ⟨r, hr, ?_, hafter r⟩
      rw [hnil]
      rfl
    · rintro ⟨b, hb, -, rfl⟩
      rw [hafter]
      exact hb

theorem mem_active_dedupedBans : r ∈ (dedupedBans bans).rows ∧ r.isActive = true ↔
    ∃ k, Oldest bans k ∧ after bans k = r := by
  rw [mem_dedupedBans]
  constructor
  · rintro ⟨⟨b, hb, hstays, rfl⟩, hactive⟩
    rw [after, extended_active] at hactive
    exact ⟨b, (stays_iff hb hactive).mp hstays, rfl⟩
  · rintro ⟨k, hk, rfl⟩
    refine ⟨⟨k, hk.mem, (stays_iff hk.mem hk.active).mpr hk, rfl⟩, ?_⟩
    rw [after, extended_active]
    exact hk.active

theorem activeUnique_dedupedBans : ActiveUnique (dedupedBans bans) := by
  intro a ha b hb hactive hactive' hkey
  obtain ⟨k, hk, rfl⟩ := mem_active_dedupedBans.mp ⟨ha, hactive⟩
  obtain ⟨k', hk', rfl⟩ := mem_active_dedupedBans.mp ⟨hb, hactive'⟩
  rw [after, after, banKey_extended, banKey_extended] at hkey
  rw [hk.unique hk' hkey]

theorem banDedupe_eq_nil (h : ActiveUnique bans) : banDedupe bans.rows = [] := by
  rw [List.eq_nil_iff_forall_not_mem]
  intro d hd
  obtain ⟨keep, b, hdup, -⟩ := mem_banDedupe.mp hd
  exact hdup.ne (h b hdup.mem keep hdup.oldest.mem hdup.active hdup.oldest.active hdup.key)

theorem after_inactive (hb : b ∈ bans.rows) (hactive : b.isActive = false) :
    isDuplicate (banDedupe bans.rows) b.id = false ∧ after bans b = b := by
  have hnot : ¬ b.isActive = true := Bool.not_eq_true _ ▸ hactive
  constructor
  · rw [← Bool.not_eq_true, isDuplicate_iff hb]
    rintro ⟨keep, hdup⟩
    exact hnot hdup.active
  · rw [after, duplicatesOf_eq_nil hb fun h => hnot h.active]
    exact extended_nil b

/-! ### Exclusions -/

theorem mem_insertIgnore {exclusions : Keyed exclusionKey} {e e' : ExclusionRecord} :
    e' ∈ (insertIgnore exclusions e).rows ↔
      e' ∈ exclusions.rows ∨ exclusions.find (exclusionKey e) = none ∧ e' = e := by
  rw [insertIgnore]
  split
  · rename_i hnone
    rw [Keyed.insert, List.mem_append, List.mem_singleton]
    exact or_congr_right (and_iff_right hnone).symm
  · rename_i hsome
    exact (or_iff_left fun h => hsome h.1).symm

/-- What `ON CONFLICT DO NOTHING` makes of a list: nothing goes, nothing else comes, and no key is left out. -/
theorem foldl_insertIgnore (l : List ExclusionRecord) (exclusions : Keyed exclusionKey) :
    (∀ e ∈ exclusions.rows, e ∈ (l.foldl insertIgnore exclusions).rows) ∧
    (∀ e ∈ (l.foldl insertIgnore exclusions).rows, e ∈ exclusions.rows ∨ e ∈ l) ∧
    ∀ e ∈ l, ∃ e' ∈ (l.foldl insertIgnore exclusions).rows, exclusionKey e' = exclusionKey e := by
  induction l generalizing exclusions with
  | nil => exact ⟨fun _ h => h, fun _ h => .inl h, fun _ h => absurd h List.not_mem_nil⟩
  | cons a l ih =>
    obtain ⟨hkeep, hfrom, hkeys⟩ := ih (insertIgnore exclusions a)
    refine ⟨?_, ?_, ?_⟩
    · intro e he
      exact hkeep e (mem_insertIgnore.mpr (.inl he))
    · intro e he
      rcases hfrom e he with he | he
      · rcases mem_insertIgnore.mp he with he | ⟨-, rfl⟩
        · exact .inl he
        · exact .inr List.mem_cons_self
      · exact .inr (List.mem_cons_of_mem a he)
    · intro e he
      rcases List.mem_cons.mp he with rfl | he
      · -- it is inserted, or its key is there already
        cases hfind : exclusions.find (exclusionKey e) with
        | none => exact ⟨e, hkeep e (mem_insertIgnore.mpr (.inr ⟨hfind, rfl⟩)), rfl⟩
        | some e' =>
          obtain ⟨he', hkey⟩ := Keyed.find_eq_some.mp hfind
          exact ⟨e', hkeep e' (mem_insertIgnore.mpr (.inl he')), hkey⟩
      · exact hkeys e he

theorem mem_repointed {exclusions : List ExclusionRecord} {dedupe : List (Nat × Nat)} {e' : ExclusionRecord} :
    e' ∈ repointed exclusions dedupe ↔
      ∃ e ∈ exclusions, ∃ d ∈ dedupe, d.1 = e.banId ∧ { e with banId := d.2 } = e' := by
  rw [repointed, List.mem_flatMap]
  constructor
  · rintro ⟨e, he, hmem⟩
    obtain ⟨d, hd, rfl⟩ := List.mem_map.mp hmem
    obtain ⟨hd, hid⟩ := List.mem_filter.mp hd
    exact ⟨e, he, d, hd, of_decide_eq_true hid, rfl⟩
  · rintro ⟨e, he, d, hd, hid, rfl⟩
    refine ⟨e, he, List.mem_map.mpr ⟨d, List.mem_filter.mpr ⟨hd, decide_eq_true hid⟩, rfl⟩⟩

theorem mem_dedupedExclusions {e : ExclusionRecord} (he : e ∈ (dedupedExclusions t).rows) :
    isDuplicate (banDedupe t.bans.rows) e.banId = false ∧ (e ∈ t.exclusions.rows ∨
      ∃ keep b, Duplicate t.bans keep b ∧ e.banId = keep.id ∧
        ∃ e₀ ∈ t.exclusions.rows, e₀.banId = b.id ∧ e₀.tenantId = e.tenantId) := by
  rw [dedupedExclusions] at he
  split at he
  · rw [Keyed.mem_delete] at he
    refine ⟨he.2, ?_⟩
    rcases (foldl_insertIgnore _ _).2.1 e he.1 with he | he
    · exact .inl he
    · obtain ⟨e₀, he₀, d, hd, hid, rfl⟩ := mem_repointed.mp he
      obtain ⟨keep, b, hdup, rfl⟩ := mem_banDedupe.mp hd
      exact .inr ⟨keep, b, hdup, rfl, e₀, he₀, hid.symm, rfl⟩
  · rename_i hnone
    have hnil : banDedupe t.bans.rows = [] := List.length_eq_zero_iff.mp (Nat.eq_zero_of_not_pos hnone)
    rw [hnil]
    exact ⟨rfl, .inl he⟩

theorem mem_dedupedExclusions_of_stays {e : ExclusionRecord} (he : e ∈ t.exclusions.rows)
    (hstays : isDuplicate (banDedupe t.bans.rows) e.banId = false) : e ∈ (dedupedExclusions t).rows := by
  rw [dedupedExclusions]
  split
  · exact Keyed.mem_delete.mpr ⟨(foldl_insertIgnore _ _).1 e he, hstays⟩
  · exact he

theorem repointed_mem {keep : BanRecord} (hdup : Duplicate t.bans keep b) {e : ExclusionRecord}
    (he : e ∈ t.exclusions.rows) (hid : e.banId = b.id) :
    ∃ e' ∈ (dedupedExclusions t).rows, e'.banId = keep.id ∧ e'.tenantId = e.tenantId := by
  have hd : (b.id, keep.id) ∈ banDedupe t.bans.rows := mem_banDedupe.mpr ⟨keep, b, hdup, rfl⟩
  obtain ⟨e', he', hkey⟩ := (foldl_insertIgnore (repointed t.exclusions.rows (banDedupe t.bans.rows))
    t.exclusions).2.2 { e with banId := keep.id } (mem_repointed.mpr ⟨e, he, _, hd, hid.symm, rfl⟩)
  obtain ⟨hban, htenant⟩ := Prod.mk.inj hkey
  refine ⟨e', ?_, hban, htenant⟩
  rw [dedupedExclusions, if_pos (List.length_pos_of_mem hd)]
  refine Keyed.mem_delete.mpr ⟨he', ?_⟩
  rw [hban]
  exact (stays_iff hdup.oldest.mem hdup.oldest.active).mpr hdup.oldest

theorem references_deduped : ∀ e ∈ (dedupedExclusions t).rows, ∃ b ∈ (dedupedBans t.bans).rows, b.id = e.banId := by
  intro e he
  obtain ⟨hstays, hfrom⟩ := mem_dedupedExclusions he
  obtain ⟨b, hb, hid⟩ : ∃ b ∈ t.bans.rows, b.id = e.banId := by
    rcases hfrom with he | ⟨keep, _, hdup, hid, -⟩
    · exact t.references e he
    · exact ⟨keep, hdup.oldest.mem, hid.symm⟩
  rw [← hid] at hstays
  refine ⟨_, mem_dedupedBans.mpr ⟨b, hb, hstays, rfl⟩, ?_⟩
  rw [after, extended_id]
  exact hid

end deduped

/-! ## The migration -/

/-- `up`: it fails where the unique index cannot be made. -/
def up (t : BanTables) : Option BanTables :=
  if h : ActiveUnique (dedupedBans t.bans) then some {
    bans := dedupedBans t.bans
    exclusions := dedupedExclusions t
    hasLiftedAt := true
    hasActiveIndex := true
    references := references_deduped
    lifted := fun hne => Bool.noConfusion hne
    unique := fun _ => h }
  else none

/-- A tenant is excluded from a ban. -/
def BanTables.Excludes (t : BanTables) (banId tenantId : Nat) : Prop :=
  ∃ e ∈ t.exclusions.rows, e.banId = banId ∧ e.tenantId = tenantId

/-- The active rows of a key. -/
def BanTables.Active (t : BanTables) (k : Inet × Int × Scope × Int × Int) (b : BanRecord) : Prop :=
  b ∈ t.bans.rows ∧ b.isActive = true ∧ banKey b = k

/-- Nothing is lost. -/
structure Lossless (t t' : BanTables) : Prop where
  /-- A key that had an active row has exactly one, and no other key has one. -/
  one : ∀ k, (∃ a, t.Active k a) → ∃! r, t'.Active k r
  none : ∀ k r, t'.Active k r → ∃ a, t.Active k a
  /-- It is the oldest one, with nothing changed but its expiry. -/
  oldest : ∀ k r, t'.Active k r → ∃ a, t.Active k a ∧ (∀ b, t.Active k b → older a b = true) ∧
    r = { a with expiresAt := r.expiresAt }
  /-- It ends when the last of them ends, never if one is permanent. -/
  expiry : ∀ k r, t'.Active k r → IsGreatest {e | ∃ b, t.Active k b ∧ b.expiry = e} r.expiry
  /-- It excludes the tenants that one of them excluded. -/
  excluded : ∀ k r, t'.Active k r → ∀ tenantId,
    t'.Excludes r.id tenantId ↔ ∃ b, t.Active k b ∧ t.Excludes b.id tenantId
  /-- Inactive rows stay as they are, with their exclusions. -/
  inactive : ∀ b, b.isActive = false → (b ∈ t'.bans.rows ↔ b ∈ t.bans.rows)
  inactiveExclusions : ∀ b ∈ t.bans.rows, b.isActive = false → ∀ e : ExclusionRecord, e.banId = b.id →
    (e ∈ t'.exclusions.rows ↔ e ∈ t.exclusions.rows)

section migration
variable {t t' : BanTables}

theorem up_deduped : ∃ t', up t = some t' ∧ t'.bans = dedupedBans t.bans ∧ t'.exclusions = dedupedExclusions t ∧
    t'.hasLiftedAt = true ∧ t'.hasActiveIndex = true := by
  rw [up, dif_pos activeUnique_dedupedBans]
  exact ⟨_, rfl, rfl, rfl, rfl, rfl⟩

theorem up_eq_self (hactive : t.hasActiveIndex = true) (hlifted : t.hasLiftedAt = true) : up t = some t := by
  have hnil : banDedupe t.bans.rows = [] := banDedupe_eq_nil (t.unique hactive)
  have hbans : dedupedBans t.bans = t.bans := by
    rw [dedupedBans, hnil]
    rfl
  have hexclusions : dedupedExclusions t = t.exclusions := by
    rw [dedupedExclusions, hnil]
    rfl
  rw [up, dif_pos activeUnique_dedupedBans]
  obtain ⟨bans, exclusions, hasLiftedAt, hasActiveIndex, _, _, _⟩ := t
  obtain rfl : hasLiftedAt = true := hlifted
  obtain rfl : hasActiveIndex = true := hactive
  rw [Option.some.injEq, BanTables.mk.injEq]
  exact ⟨hbans, hexclusions, rfl, rfl⟩

theorem active_iff (hbans : t'.bans = dedupedBans t.bans) {k : Inet × Int × Scope × Int × Int} {r : BanRecord} :
    t'.Active k r ↔ ∃ a, Oldest t.bans a ∧ banKey a = k ∧ after t.bans a = r := by
  rw [BanTables.Active, hbans, ← and_assoc, mem_active_dedupedBans]
  constructor
  · rintro ⟨⟨a, ha, rfl⟩, hkey⟩
    rw [after, banKey_extended] at hkey
    exact ⟨a, ha, hkey, rfl⟩
  · rintro ⟨a, ha, hkey, rfl⟩
    refine ⟨⟨a, ha, rfl⟩, ?_⟩
    rw [after, banKey_extended]
    exact hkey

theorem active_iff_mem {a b : BanRecord} (ha : Oldest t.bans a) :
    t.Active (banKey a) b ↔ b ∈ a :: duplicatesOf t.bans (banDedupe t.bans.rows) a.id := by
  rw [List.mem_cons, mem_duplicatesOf ha]
  constructor
  · rintro ⟨hb, hactive, hkey⟩
    by_cases hne : b = a
    · exact .inl hne
    · exact .inr ⟨hb, hactive, ha, hkey, hne⟩
  · rintro (rfl | hdup)
    · exact ⟨ha.mem, ha.active, rfl⟩
    · exact ⟨hdup.mem, hdup.active, hdup.key⟩

theorem lossless_of_deduped (hbans : t'.bans = dedupedBans t.bans)
    (hexclusions : t'.exclusions = dedupedExclusions t) : Lossless t t' where
  one := by
    rintro k ⟨b, hb, hactive, hkey⟩
    obtain ⟨a, -, ha, hakey⟩ := exists_oldest hb hactive
    refine ⟨after t.bans a, (active_iff hbans).mpr ⟨a, ha, hakey.trans hkey, rfl⟩, ?_⟩
    intro r hr
    obtain ⟨a', ha', hkey', rfl⟩ := (active_iff hbans).mp hr
    rw [ha'.unique ha (hkey'.trans (hakey.trans hkey).symm)]
  none := by
    intro k r hr
    obtain ⟨a, ha, hkey, -⟩ := (active_iff hbans).mp hr
    exact ⟨a, ha.mem, ha.active, hkey⟩
  oldest := by
    intro k r hr
    obtain ⟨a, ha, rfl, rfl⟩ := (active_iff hbans).mp hr
    refine ⟨a, ⟨ha.mem, ha.active, rfl⟩, ?_, extended_eq _ a⟩
    rintro b ⟨hb, hactive, hkey⟩
    exact ha.least b hb hactive hkey
  expiry := by
    intro k r hr
    obtain ⟨a, ha, rfl, rfl⟩ := (active_iff hbans).mp hr
    have hgreatest := @isGreatest_extended (duplicatesOf t.bans (banDedupe t.bans.rows) a.id) a
    simp only [← active_iff_mem ha] at hgreatest
    exact hgreatest
  excluded := by
    intro k r hr tenantId
    obtain ⟨a, ha, rfl, rfl⟩ := (active_iff hbans).mp hr
    have hid : (after t.bans a).id = a.id := extended_id _ a
    rw [hid, BanTables.Excludes, hexclusions]
    constructor
    · rintro ⟨e, he, hban, htenant⟩
      rcases (mem_dedupedExclusions he).2 with he | ⟨keep, b, hdup, hkeep, e₀, he₀, hban₀, htenant₀⟩
      · exact ⟨a, ⟨ha.mem, ha.active, rfl⟩, e, he, hban, htenant⟩
      · obtain rfl := eq_of_id hdup.oldest.mem ha.mem (hkeep.symm.trans hban)
        exact ⟨b, ⟨hdup.mem, hdup.active, hdup.key⟩, e₀, he₀, hban₀, htenant₀.trans htenant⟩
    · rintro ⟨b, hb, e, he, hban, htenant⟩
      rcases List.mem_cons.mp ((active_iff_mem ha).mp hb) with rfl | hdup
      · refine ⟨e, mem_dedupedExclusions_of_stays he ?_, hban, htenant⟩
        rw [hban]
        exact (stays_iff ha.mem ha.active).mpr ha
      · obtain ⟨e', he', hban', htenant'⟩ := repointed_mem ((mem_duplicatesOf ha).mp hdup) he hban
        exact ⟨e', he', hban', htenant'.trans htenant⟩
  inactive := by
    intro b hactive
    rw [hbans, mem_dedupedBans]
    constructor
    · rintro ⟨b', hb', -, rfl⟩
      rw [after, extended_active] at hactive
      rw [(after_inactive hb' hactive).2]
      exact hb'
    · intro hb
      exact ⟨b, hb, after_inactive hb hactive⟩
  inactiveExclusions := by
    intro b hb hactive e hban
    rw [hexclusions]
    constructor
    · intro he
      rcases (mem_dedupedExclusions he).2 with he | ⟨keep, _, hdup, hkeep, -⟩
      · exact he
      · obtain rfl := eq_of_id hdup.oldest.mem hb (hkeep.symm.trans hban)
        rw [hdup.oldest.active] at hactive
        contradiction
    · intro he
      refine mem_dedupedExclusions_of_stays he ?_
      rw [hban]
      exact (after_inactive hb hactive).1

end migration

/-- The migration never fails, loses nothing, and does nothing when it runs again. -/
theorem up_lossless (t : BanTables) : ∃ t', up t = some t' ∧ Lossless t t' ∧ up t' = some t' := by
  obtain ⟨t', hup, hbans, hexclusions, hlifted, hactive⟩ := up_deduped (t := t)
  exact ⟨t', hup, lossless_of_deduped hbans hexclusions, up_eq_self hactive hlifted⟩

end Obliguard.Server

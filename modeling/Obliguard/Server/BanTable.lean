import Obliguard.Server.BanSafety

/-!
# Statements on `ip_bans`

The lookups and writes that the ban service, the BanEngine and the remote blocklists share
(`server/src/services/ban.service.ts`): rows of one target, the unique key of active rows
(migration 032), the single deactivation path and the disabling of list entries after a Lift.

`deactivateBans_bans` and `deactivateBans_blockedIps` say what a deactivation does to the two tables
it writes, and `deactivateBans_frame` that it writes no other one.
-/

namespace Obliguard.Server

open Bans IpValidation

/-- `DEACTIVATE_CHUNK`. -/
def deactivateChunkSize : Nat := 5000

/-! ## Lookups -/

/-- `whereSameTarget`: the rows of exactly this target, whatever their storage form. -/
def sameTarget (n : Net) (b : BanRow) : Bool :=
  (b.target.ip == Inet.ofAddr n.first || b.target.ip == Inet.ofNet n) &&
    b.target.effectivePrefix == n.len

theorem net_of_sameTarget {n : Net} {b : BanRow} (h : sameTarget n b = true) : b.net = n := by
  simp only [sameTarget, Bool.and_eq_true, Bool.or_eq_true, beq_iff_eq] at h
  have hip : b.target.ip.family = n.family ∧ b.target.ip.addr = n.addr := by
    rcases h.1 with h | h
    · exact ⟨by rw [h]; rfl, by rw [h]; rfl⟩
    · exact ⟨by rw [h]; rfl, by rw [h]; rfl⟩
  apply Net.ext
  · exact hip.1
  · show HighBits.clearLow (b.target.ip.family.bits - b.target.effectivePrefix) b.target.ip.addr = _
    rw [hip.1, hip.2, h.2]
    exact HighBits.clearLow_of_dvd n.masked
  · exact h.2

/-- Expired, though still flagged active. -/
def BanRow.expired (b : BanRow) (now : Int) : Bool := b.expiresAt.any fun e => e ≤ now

theorem BanRow.expired_eq (b : BanRow) (now : Int) : b.expired now = !b.unexpired now := by
  cases h : b.expiresAt with
  | none => simp [expired, unexpired, h]
  | some e =>
    simp only [expired, unexpired, h, Option.any_some, Option.all_some, gt_iff_lt]
    rw [← decide_not, decide_eq_decide, not_lt]

/-- The key of the unique index on active rows. -/
def activeKey (b : BanRow) : Inet × Nat × Scope × Nat × Nat :=
  (b.target.ip, b.target.effectivePrefix, b.scope, b.scopeId.getD 0, b.tenantId.getD 0)

/-- An active row holds the unique key already. -/
def uniqueConflict (bans : Table BanRow.id) (b : BanRow) : Bool :=
  b.isActive && bans.rows.any fun r => r.isActive && activeKey r == activeKey b

/-- `isWhitelisted` in mode `overlaps`. -/
def isWhitelistedOverlapping (db : Db) (n : Net) (ctx : WhitelistMatchContext) : Bool :=
  db.whitelist.rows.any fun w => (Inet.ofNet w.ip).overlaps (Inet.ofNet n) && whitelistApplies ctx w

/-- An applicable whitelist entry contains the target (`>>=`). -/
def isWhitelisted (db : Db) (n : Net) (ctx : WhitelistMatchContext) : Bool :=
  db.whitelist.rows.any fun w => (Inet.ofNet w.ip).contains (Inet.ofNet n) && whitelistApplies ctx w

/-- An active global row covers the target; its expiry is not looked at. -/
def globallyCovered (bans : Table BanRow.id) (n : Net) : Bool :=
  bans.rows.any fun b => b.isActive && b.scope == .global &&
    b.target.networkSql.contains (Inet.ofNet n)

theorem globallyCovered_iff {bans : Table BanRow.id} {n : Net} : globallyCovered bans n = true ↔
    ∃ b ∈ bans.rows, b.isActive = true ∧ b.scope = .global ∧ n ≤ b.net := by
  simp only [globallyCovered, List.any_eq_true, Bool.and_eq_true, beq_iff_eq, Inet.contains_iff,
    Inet.net_ofNet, BanRow.net, and_assoc]

theorem isWhitelisted_iff {db : Db} {n : Net} {ctx : WhitelistMatchContext} :
    isWhitelisted db n ctx = true ↔
      ∃ w ∈ db.whitelist.rows, n ≤ w.ip ∧ whitelistApplies ctx w = true := by
  simp only [isWhitelisted, List.any_eq_true, Bool.and_eq_true, Inet.contains_iff, Inet.net_ofNet]

/-! ## Deactivation -/

/-- A row after its deactivation. -/
def BanRow.deactivated (now : Int) (reason : LiftReason) (b : BanRow) : BanRow :=
  { b with isActive := false, liftedAt := some now, liftReason := some reason }

theorem BanRow.deactivated_id (now : Int) (reason : LiftReason) (b : BanRow) :
    (b.deactivated now reason).id = b.id := rfl

/-- `UPDATE` of one slice of ids, returning the rows it deactivated. -/
def deactivateChunk (now : Int) (reason : LiftReason) (acc : List BanRow × Table BanRow.id)
    (chunk : List Nat) : List BanRow × Table BanRow.id :=
  let hit (b : BanRow) : Bool := chunk.contains b.id && b.isActive
  (acc.1 ++ (acc.2.rows.filter hit).map (BanRow.deactivated now reason),
    acc.2.update hit (BanRow.deactivated now reason) (BanRow.deactivated_id now reason))

/-- An entry after it was disabled. -/
def BlockedIp.disabled (e : BlockedIp) : BlockedIp := { e with enabled := false }

theorem BlockedIp.disabled_id (e : BlockedIp) : e.disabled.id = e.id := rfl

/-- The list entry behind a lifted row: an enabled one of the row's own list with the same target. -/
def isLiftedEntry (row : BanRow) (e : BlockedIp) : Bool :=
  row.banType == .remote && row.originRef == some (.blocklist e.blocklistId) &&
    e.ip == row.target.networkSql

/-- `disableLiftedBlocklistEntries`. -/
def disableLiftedBlocklistEntries (entries : Table BlockedIp.id) (rows : List BanRow) :
    Table BlockedIp.id :=
  rows.foldl (fun t row => t.update (fun e => e.enabled && isLiftedEntry row e)
    BlockedIp.disabled BlockedIp.disabled_id) entries

/-- The slices of ids that `deactivateBans` goes through. -/
def liftChunks (ids : List Nat) : List (List Nat) :=
  slices deactivateChunkSize ((distinct ids).filter fun n => decide (0 < n))

/-- `deactivateBans`, the single deactivation path (Lift, wipe, expiry, external withdraw, sync):
the rows still active among `ids` are deactivated, and a Lift disables the list entries behind
them. Returns the rows actually deactivated. -/
def deactivateBans (db : Db) (now : Int) (ids : List Nat) (reason : LiftReason) :
    List BanRow × Db :=
  let unique := (distinct ids).filter fun n => decide (0 < n)
  let done := (slices deactivateChunkSize unique).foldl (deactivateChunk now reason) ([], db.bans)
  (done.1, { db with
    bans := done.2
    blockedIps := if reason = .lift then disableLiftedBlocklistEntries db.blockedIps done.1
      else db.blockedIps })

/-- `expireBans`, the expiry job. -/
def expireBans (db : Db) (now : Int) : Db :=
  (deactivateBans db now ((db.bans.rows.filter fun b => b.isActive && b.expired now).map (·.id))
    .expiry).2

/-- `expireStale`: expired rows of a target still flagged active hold the unique key. -/
def expireStale (db : Db) (now : Int) (n : Net) : Db :=
  (deactivateBans db now ((db.bans.rows.filter fun b => sameTarget n b && b.isActive &&
    b.expired now).map (·.id)) .expiry).2

/-- `deactivateRemoteBans`: every active ban of a source, as `remote_sync`. -/
def deactivateRemoteBans (db : Db) (now : Int) (ref : OriginRef) : Db :=
  (deactivateBans db now ((db.bans.rows.filter fun b => b.originRef == some ref &&
    b.banType == .remote && b.isActive).map (·.id)) .remoteSync).2

/-- The rows that a deactivation reaches. -/
def isHit (ids : List Nat) (b : BanRow) : Bool := ids.contains b.id && decide (0 < b.id) && b.isActive

theorem foldl_deactivateChunk (now : Int) (reason : LiftReason) (cs : List (List Nat))
    (acc : List BanRow × Table BanRow.id) : (cs.foldl (deactivateChunk now reason) acc).2 =
      acc.2.update (fun b => cs.flatten.contains b.id && b.isActive) (BanRow.deactivated now reason)
        (BanRow.deactivated_id now reason) := by
  induction cs generalizing acc with
  | nil => simp [Table.update_false]
  | cons c cs ih =>
    rw [List.foldl_cons, ih, deactivateChunk]
    dsimp only
    rw [Table.update_update (by simp [BanRow.deactivated])]
    congr 1
    funext b
    rw [List.flatten_cons, Bool.eq_iff_iff]
    simp only [List.contains_eq_mem, Bool.or_eq_true, Bool.and_eq_true, decide_eq_true_eq,
      List.mem_append]
    tauto

theorem deactivateBans_bans (db : Db) (now : Int) (ids : List Nat) (reason : LiftReason) :
    (deactivateBans db now ids reason).2.bans =
      db.bans.update (isHit ids) (BanRow.deactivated now reason)
        (BanRow.deactivated_id now reason) := by
  rw [deactivateBans]
  dsimp only
  rw [foldl_deactivateChunk]
  congr 1
  funext b
  rw [isHit, Bool.eq_iff_iff]
  simp only [List.contains_eq_mem, Bool.and_eq_true, decide_eq_true_eq, List.mem_flatten]
  rw [mem_slices (by decide)]
  simp

theorem isHit_iff {bans : Table BanRow.id} {ids : List Nat} {b : BanRow} (hb : b ∈ bans.rows) :
    isHit ids b = true ↔ b.id ∈ ids ∧ b.isActive = true := by
  have := (bans.bounds b hb).1
  simp [isHit, this]

theorem active_of_mem_deactivateBans {db : Db} {now : Int} {ids : List Nat} {reason : LiftReason}
    {b : BanRow} (h : b ∈ (deactivateBans db now ids reason).2.bans.rows)
    (ha : b.isActive = true) : b ∈ db.bans.rows ∧ b.id ∉ ids := by
  rw [deactivateBans_bans, Table.mem_update] at h
  obtain ⟨a, hmem, rfl⟩ := h
  by_cases hhit : isHit ids a = true
  · rw [if_pos hhit] at ha
    contradiction
  · rw [if_neg hhit] at ha ⊢
    refine ⟨hmem, fun hid => hhit ((isHit_iff hmem).mpr ⟨hid, ha⟩)⟩

theorem mem_deactivateBans_of_not_mem {db : Db} {now : Int} {ids : List Nat} {reason : LiftReason}
    {b : BanRow} (hb : b ∈ db.bans.rows) (hid : b.id ∉ ids) :
    b ∈ (deactivateBans db now ids reason).2.bans.rows := by
  rw [deactivateBans_bans, Table.mem_update]
  refine ⟨b, hb, if_neg fun hhit => hid ((isHit_iff hb).mp hhit).1⟩

theorem mem_foldl_deactivateChunk {now : Int} {reason : LiftReason} (cs : List (List Nat))
    (acc : List BanRow × Table BanRow.id) {r : BanRow}
    (h : r ∈ (cs.foldl (deactivateChunk now reason) acc).1) : r ∈ acc.1 ∨
      ∃ b ∈ acc.2.rows, b.id ∈ cs.flatten ∧ b.isActive = true ∧ r = b.deactivated now reason := by
  induction cs generalizing acc with
  | nil => exact Or.inl h
  | cons c cs ih =>
    rw [List.foldl_cons] at h
    rcases ih _ h with h | ⟨b, hb, hid, hact, rfl⟩
    · simp only [deactivateChunk, List.mem_append, List.mem_map, List.mem_filter,
        Bool.and_eq_true] at h
      rcases h with h | ⟨b, ⟨hb, hc, hact⟩, rfl⟩
      · exact Or.inl h
      · exact Or.inr ⟨b, hb, by simp at hc; simp [hc], hact, rfl⟩
    · simp only [deactivateChunk, Table.mem_update] at hb
      obtain ⟨a, ha, rfl⟩ := hb
      split at hact
      · simp [BanRow.deactivated] at hact
      · rename_i hn
        rw [if_neg hn] at hid ⊢
        exact Or.inr ⟨a, ha, by simp [hid], hact, rfl⟩

theorem mem_deactivated {db : Db} {now : Int} {ids : List Nat} {reason : LiftReason} {r : BanRow}
    (h : r ∈ (deactivateBans db now ids reason).1) :
    ∃ b ∈ db.bans.rows, b.id ∈ ids ∧ b.isActive = true ∧ r = b.deactivated now reason := by
  rcases mem_foldl_deactivateChunk _ _ h with h | ⟨b, hb, hid, hact, rfl⟩
  · contradiction
  · refine ⟨b, hb, ?_, hact, rfl⟩
    obtain ⟨c, hc, hid⟩ := List.mem_flatten.mp hid
    have := (mem_slices (by decide)).mp ⟨c, hc, hid⟩
    simpa using List.mem_of_mem_filter this

theorem disableLiftedBlocklistEntries_eq (entries : Table BlockedIp.id) (rows : List BanRow) :
    disableLiftedBlocklistEntries entries rows =
      entries.update (fun e => e.enabled && rows.any fun r => isLiftedEntry r e)
        BlockedIp.disabled BlockedIp.disabled_id := by
  rw [disableLiftedBlocklistEntries]
  induction rows generalizing entries with
  | nil => simp [Table.update_false]
  | cons r rows ih =>
    rw [List.foldl_cons, ih, Table.update_update (by simp [BlockedIp.disabled])]
    congr 1
    funext e
    rw [List.any_cons, Bool.and_or_distrib_left]

/-- A deactivation writes bans and list entries only. -/
theorem deactivateBans_frame (db : Db) (now : Int) (ids : List Nat) (reason : LiftReason) :
    (deactivateBans db now ids reason).2 = { db with
      bans := (deactivateBans db now ids reason).2.bans
      blockedIps := (deactivateBans db now ids reason).2.blockedIps } := rfl

/-- Only a Lift touches list entries. -/
theorem deactivateBans_blockedIps {db : Db} {now : Int} {ids : List Nat} {reason : LiftReason}
    (h : reason ≠ .lift) : (deactivateBans db now ids reason).2.blockedIps = db.blockedIps := by
  rw [deactivateBans]
  exact if_neg h

end Obliguard.Server

import Obliguard.Server.Requests

/-!
# Bulk Lift and single Lifts

`bulkLift` reads every row up front, sorts the ids into three groups and writes each group at once;
`lift` decides and writes row by row. Both leave the tables of `liftedDb`, which says what a Lift of
some ids does in one update a table: a Lift changes neither the plan of another row nor what the caller
may write.
-/

namespace Obliguard.Server

open Bans

def LiftPlan.isDeactivate : LiftPlan → Bool
  | .deactivate => true
  | _ => false

def LiftPlan.isExclude : LiftPlan → Bool
  | .exclude => true
  | _ => false

/-- A Lift of the row deactivates it. -/
def deactivates (db : Db) (c : Caller) (b : BanRow) : Bool :=
  teamWritable db c b && (planLift b c.tenantId).isDeactivate

/-- A Lift of the row excludes it for the tenant. -/
def excludes (db : Db) (c : Caller) (b : BanRow) : Bool :=
  teamWritable db c b && (planLift b c.tenantId).isExclude

/-- `lift` on one id after the other, each at its own time; refusals are ignored. -/
def liftEach (c : Caller) (time : Nat → Int) (ids : List Nat) (db : Db) : Db :=
  ids.foldl (fun db id => (lift c (time id) id db).2) db

/-- The tenant has excluded the ban already. -/
def alreadyExcluded (db : Db) (tenantId banId : Nat) : Bool :=
  db.exclusions.any fun e => e.banId == banId && e.tenantId == tenantId

theorem BanRow.deactivated_at_id (time : Nat → Int) (b : BanRow) :
    (b.deactivated (time b.id) .lift).id = b.id := rfl

/-- The bans after a Lift of distinct ids. -/
def liftedBans (c : Caller) (time : Nat → Int) (ids : List Nat) (db : Db) : Table BanRow.id :=
  db.bans.update (fun b => ids.contains b.id && deactivates db c b)
    (fun b => b.deactivated (time b.id) .lift) (BanRow.deactivated_at_id time)

/-- The list entries after it. -/
def liftedEntries (c : Caller) (ids : List Nat) (db : Db) : Table BlockedIp.id :=
  db.blockedIps.update
    (fun e => e.enabled && db.bans.rows.any fun b => ids.contains b.id && deactivates db c b &&
      isLiftedEntry b e) BlockedIp.disabled BlockedIp.disabled_id

/-- The exclusions that it adds; `author` is their creator. -/
def newExclusions (c : Caller) (author : Option Nat) (ids : List Nat) (db : Db) : List Exclusion :=
  (ids.filter fun id => (db.bans.find id).any (excludes db c) &&
    !alreadyExcluded db c.tenantId id).map (⟨·, c.tenantId, author⟩)

def liftedDb (c : Caller) (time : Nat → Int) (author : Option Nat) (ids : List Nat) (db : Db) : Db :=
  { db with
    bans := liftedBans c time ids db
    blockedIps := liftedEntries c ids db
    exclusions := db.exclusions ++ newExclusions c author ids db }

section lifts
variable {c : Caller} {now : Int} {time : Nat → Int} {author : Option Nat} {db : Db} {b : BanRow}
  {id : Nat} {ids : List Nat}

theorem active_of_deactivates (h : deactivates db c b = true) : b.isActive = true := by
  rw [deactivates, Bool.and_eq_true_iff] at h
  have hplan := h.2
  unfold planLift at hplan
  split at hplan
  · split at hplan
    · assumption
    · contradiction
  · split at hplan
    · contradiction
    · split at hplan
      · split at hplan
        · contradiction
        · contradiction
      · split at hplan
        · contradiction
        · split at hplan
          · assumption
          · contradiction

theorem deactivates_deactivated {t : Int} : deactivates db c (b.deactivated t .lift) = false := by
  rw [← Bool.not_eq_true]
  intro h
  exact absurd (active_of_deactivates h) Bool.false_ne_true

theorem liftedDb_nil : liftedDb c time author [] db = db := by
  have hbans : liftedBans c time [] db = db.bans := Table.update_false _ _ _
  have hentries : liftedEntries c [] db = db.blockedIps := by
    unfold liftedEntries
    simp only [List.contains_nil, Bool.false_and, List.any_eq_false.mpr fun _ _ => Bool.false_ne_true,
      Bool.and_false]
    exact Table.update_false _ _ _
  rw [liftedDb, hbans, hentries]
  simp [newExclusions]

theorem find_liftedBans (hid : id ∉ ids) : (liftedBans c time ids db).find id = db.bans.find id := by
  rw [liftedBans, Table.find_update]
  cases hfind : db.bans.find id with
  | none => rfl
  | some b =>
    obtain ⟨-, rfl⟩ := Table.find_eq_some.mp hfind
    simp [hid]

theorem alreadyExcluded_liftedDb {tenantId : Nat} (hid : id ∉ ids) :
    alreadyExcluded (liftedDb c time author ids db) tenantId id =
      alreadyExcluded db tenantId id := by
  have hno : (newExclusions c author ids db).any
      (fun e => e.banId == id && e.tenantId == tenantId) = false := by
    rw [List.any_eq_false]
    intro e he
    obtain ⟨banId, hmem, rfl⟩ := List.mem_map.mp he
    have hne : banId ≠ id := by
      rintro rfl
      exact hid (List.mem_of_mem_filter hmem)
    simp [hne]
  rw [alreadyExcluded, liftedDb, List.any_append, hno, Bool.or_false]
  rfl

theorem any_liftedBans {q : BanRow → Bool} (hid : id ∉ ids) :
    ((liftedBans c time [id] db).rows.any fun b =>
        ids.contains b.id && deactivates db c b && q b) =
      db.bans.rows.any fun b => ids.contains b.id && deactivates db c b && q b := by
  show ((db.bans.rows.map _).any _) = _
  rw [List.any_map]
  refine List.any_congr rfl fun b => ?_
  rw [Function.comp_apply]
  split
  · rename_i hb
    have hb : b.id ∉ ids := by
      rw [Bool.and_eq_true_iff, List.contains_iff_mem, List.mem_singleton] at hb
      exact hb.1 ▸ hid
    simp [hb, BanRow.deactivated_id]
  · rfl

theorem selected_cons (k : Nat) :
    ([id].contains k || ids.contains k) = (id :: ids).contains k := by
  rw [List.contains_cons, List.contains_cons, List.contains_nil, Bool.or_false]

theorem newExclusions_cons : newExclusions c author (id :: ids) db =
    newExclusions c author [id] db ++ newExclusions c author ids db := by
  unfold newExclusions
  rw [← List.map_append, ← List.filter_append]
  rfl

theorem liftedDb_cons (hid : id ∉ ids) : liftedDb c time author ids
    (liftedDb c time author [id] db) = liftedDb c time author (id :: ids) db := by
  have hdeactivates : deactivates (liftedDb c time author [id] db) c = deactivates db c := rfl
  have hbans : liftedBans c time ids (liftedDb c time author [id] db) =
      liftedBans c time (id :: ids) db := by
    unfold liftedBans
    rw [hdeactivates]
    show (db.bans.update _ _ (BanRow.deactivated_at_id time)).update _ _ _ = _
    rw [Table.update_update fun b _ => by rw [deactivates_deactivated, Bool.and_false]]
    simp only [← Bool.and_or_distrib_right, selected_cons]
  have hentries : liftedEntries c ids (liftedDb c time author [id] db) =
      liftedEntries c (id :: ids) db := by
    unfold liftedEntries
    rw [hdeactivates]
    show (db.blockedIps.update _ _ BlockedIp.disabled_id).update (fun e => e.enabled &&
      (liftedBans c time [id] db).rows.any _) _ _ = _
    rw [Table.update_update fun _ _ => rfl]
    simp only [any_liftedBans hid, ← Bool.and_or_distrib_left, any_or_any, ← Bool.and_or_distrib_right,
      selected_cons]
  have hexclusions : newExclusions c author ids (liftedDb c time author [id] db) =
      newExclusions c author ids db := by
    unfold newExclusions
    refine congrArg (List.map _) (List.filter_congr fun k hk => ?_)
    have hne : k ∉ [id] := by
      rintro hmem
      exact hid (List.mem_singleton.mp hmem ▸ hk)
    rw [alreadyExcluded_liftedDb hne]
    show (((liftedBans c time [id] db).find k).any (excludes db c) && _) = _
    rw [find_liftedBans hne]
  show ({ db with
    bans := liftedBans c time ids (liftedDb c time author [id] db)
    blockedIps := liftedEntries c ids (liftedDb c time author [id] db)
    exclusions := db.exclusions ++ newExclusions c author [id] db ++
      newExclusions c author ids (liftedDb c time author [id] db) } : Db) = _
  rw [hbans, hentries, hexclusions, List.append_assoc, ← newExclusions_cons]
  rfl

theorem deactivateBans_eq_lifted {l : List Nat}
    (hl : ∀ b ∈ db.bans.rows, (b.id ∈ l ∧ b.isActive = true ↔ b.id ∈ ids ∧ deactivates db c b = true))
    (htime : ∀ k ∈ ids, time k = now) : (deactivateBans db now l .lift).2 =
      { db with bans := liftedBans c time ids db, blockedIps := liftedEntries c ids db } := by
  have hsel : ∀ b ∈ db.bans.rows, isHit l b = (ids.contains b.id && deactivates db c b) := by
    intro b hb
    rw [Bool.eq_iff_iff, isHit_iff hb, hl b hb, Bool.and_eq_true_iff, List.contains_iff_mem]
  have hbans : (deactivateBans db now l .lift).2.bans = liftedBans c time ids db := by
    rw [deactivateBans_bans]
    refine Table.update_congr fun b hb => ?_
    rw [hsel b hb]
    split
    · rename_i hhit
      rw [Bool.and_eq_true_iff, List.contains_iff_mem] at hhit
      rw [htime _ hhit.1]
    · rfl
  have hentries : (deactivateBans db now l .lift).2.blockedIps = liftedEntries c ids db := by
    show disableLiftedBlocklistEntries db.blockedIps (deactivateBans db now l .lift).1 = _
    rw [disableLiftedBlocklistEntries_eq]
    refine Table.update_congr fun e _ => ?_
    have hany : ((deactivateBans db now l .lift).1.any fun r => isLiftedEntry r e) =
        db.bans.rows.any fun b => ids.contains b.id && deactivates db c b && isLiftedEntry b e := by
      rw [Bool.eq_iff_iff, List.any_eq_true, List.any_eq_true]
      constructor
      · rintro ⟨r, hr, hentry⟩
        obtain ⟨b, hb, hid, hactive, rfl⟩ := mem_deactivated hr
        refine ⟨b, hb, ?_⟩
        rw [← hsel b hb, (isHit_iff hb).mpr ⟨hid, hactive⟩]
        exact hentry
      · rintro ⟨b, hb, hhit⟩
        rw [Bool.and_eq_true_iff, ← hsel b hb, isHit_iff hb] at hhit
        exact ⟨_, (mem_deactivated_of_mem hb hhit.1.2 hhit.1.1).2, hhit.2⟩
    rw [hany]
  rw [deactivateBans_frame, hbans, hentries]

theorem addExclusion_eq_new (hid : (db.bans.find id).any (excludes db c) = true) :
    addExclusion db ⟨id, c.tenantId, author⟩ =
      { db with exclusions := db.exclusions ++ newExclusions c author [id] db } := by
  unfold addExclusion newExclusions
  rw [List.filter_singleton, hid, Bool.true_and]
  show (if alreadyExcluded db c.tenantId id = true then _ else _) = _
  cases alreadyExcluded db c.tenantId id with
  | true => simp
  | false => simp

theorem newExclusions_of_not (hid : (db.bans.find id).any (excludes db c) = false) :
    newExclusions c author [id] db = [] := by
  rw [newExclusions, List.filter_singleton, hid]
  rfl

theorem liftedDb_of_no_deactivation (hno : ∀ b ∈ db.bans.rows, b.id = id → deactivates db c b = false) :
    liftedDb c time author [id] db =
      { db with exclusions := db.exclusions ++ newExclusions c author [id] db } := by
  have hsame : (deactivateBans db (time id) [] .lift).2 =
      { db with bans := liftedBans c time [id] db, blockedIps := liftedEntries c [id] db } := by
    refine deactivateBans_eq_lifted ?_ (by simp)
    intro b hb
    simp only [List.not_mem_nil, false_and, List.mem_singleton, false_iff, not_and]
    intro hid
    simp [hno b hb hid]
  rw [deactivateBans_nil] at hsame
  have hbans := congrArg Db.bans hsame
  have hentries := congrArg Db.blockedIps hsame
  dsimp only at hbans hentries
  rw [liftedDb, ← hbans, ← hentries]

theorem lift_eq_lifted (hmember : assertOperatingMembership c = .ok ()) :
    (lift c (time id) id db).2 = liftedDb c time (some c.userId) [id] db := by
  have hquiet : (∀ b ∈ db.bans.rows, b.id = id → deactivates db c b = false) →
      (db.bans.find id).any (excludes db c) = false →
        db = liftedDb c time (some c.userId) [id] db := by
    intro hno hexcludes
    rw [liftedDb_of_no_deactivation hno, newExclusions_of_not hexcludes, List.append_nil]
  unfold lift
  rw [hmember]
  dsimp only
  cases hfind : db.bans.find id with
  | none =>
    refine hquiet ?_ (by rw [hfind]; rfl)
    intro b hb hid
    rw [Table.find_eq_some.mpr ⟨hb, hid⟩] at hfind
    contradiction
  | some ban =>
    have hrow : ∀ b ∈ db.bans.rows, b.id = id → b = ban := by
      intro b hb hid
      rw [Table.find_eq_some.mpr ⟨hb, hid⟩] at hfind
      exact Option.some.inj hfind
    have hno : deactivates db c ban = false →
        ∀ b ∈ db.bans.rows, b.id = id → deactivates db c b = false := by
      intro h b hb hid
      rw [hrow b hb hid]
      exact h
    have hexcludes : (db.bans.find id).any (excludes db c) = excludes db c ban := by
      rw [hfind]
      rfl
    dsimp only
    split
    · rename_i hteam
      rw [Bool.not_eq_true'] at hteam
      exact hquiet (hno (by simp [deactivates, hteam])) (by simp [hexcludes, excludes, hteam])
    · rename_i hteam
      rw [Bool.not_eq_true', Bool.not_eq_false] at hteam
      split
      · rename_i hplan
        exact hquiet (hno (by simp [deactivates, hplan, LiftPlan.isDeactivate]))
          (by simp [hexcludes, excludes, hplan, LiftPlan.isExclude])
      · rename_i hplan
        rw [liftedDb_of_no_deactivation (hno (by simp [deactivates, hplan, LiftPlan.isDeactivate]))]
        exact addExclusion_eq_new (by simp [hexcludes, excludes, hteam, hplan, LiftPlan.isExclude])
      · rename_i hplan
        have hdeactivates : deactivates db c ban = true := by
          simp [deactivates, hteam, hplan, LiftPlan.isDeactivate]
        have hnew : newExclusions c (some c.userId) [id] db = [] :=
          newExclusions_of_not (by simp [hexcludes, excludes, hplan, LiftPlan.isExclude])
        rw [liftedDb, hnew, List.append_nil]
        refine deactivateBans_eq_lifted ?_ (by simp)
        intro b hb
        rw [List.mem_singleton]
        refine and_congr_right fun hid => ?_
        rw [hrow b hb hid, hdeactivates]
        simp [active_of_deactivates hdeactivates]

theorem liftEach_eq_lifted (hmember : assertOperatingMembership c = .ok ()) (hids : ids.Nodup) :
    liftEach c time ids db = liftedDb c time (some c.userId) ids db := by
  induction ids generalizing db with
  | nil => exact liftedDb_nil.symm
  | cons id ids ih =>
    obtain ⟨hid, hids⟩ := List.nodup_cons.mp hids
    calc liftEach c time (id :: ids) db
        = liftEach c time ids (lift c (time id) id db).2 := rfl
      _ = liftedDb c time (some c.userId) ids (liftedDb c time (some c.userId) [id] db) := by
          rw [ih hids, lift_eq_lifted hmember]
      _ = liftedDb c time (some c.userId) (id :: ids) db := liftedDb_cons hid

end lifts

/-! ## The batch -/

/-- The ids that the counts of a bulk Lift account for. -/
def BulkLiftResult.total (r : BulkLiftResult) : Nat := r.lifted + r.excluded + r.skipped + r.refused

/-- The batch of the ids read so far. -/
structure BatchOf (db : Db) (c : Caller) (ids : List Nat) (batch : LiftBatch) : Prop where
  toDeactivate : batch.toDeactivate =
    ids.filter fun id => (db.bans.find id).any (deactivates db c)
  toExclude : batch.toExclude.map (·.id) =
    ids.filter fun id => (db.bans.find id).any (excludes db c)
  lifted : batch.result.lifted = 0
  total : batch.result.total + batch.toDeactivate.length + batch.toExclude.length = ids.length

section batch
variable {c : Caller} {now : Int} {time : Nat → Int} {db : Db} {id : Nat} {ids : List Nat}
  {batch : LiftBatch} {r : BulkLiftResult} {e : ApiError}

theorem total_refuse : (r.refuse id e).total = r.total + 1 := by
  unfold BulkLiftResult.total BulkLiftResult.refuse
  dsimp only
  split
  · omega
  · omega

theorem any_writableBan (q : BanRow → Bool) : (writableBan db c id).any q =
    (db.bans.find id).any fun b => teamWritable db c b && q b := by
  unfold writableBan
  cases db.bans.find id with
  | none => rfl
  | some b =>
    rw [Option.filter_some, Option.any_some]
    split
    · rename_i hb
      rw [hb, Option.any_some, Bool.true_and]
    · rename_i hb
      rw [Bool.eq_false_iff.mpr hb]
      rfl

theorem batchOf_snoc (h : BatchOf db c ids batch) :
    BatchOf db c (ids ++ [id]) (planBatch db c batch id) := by
  have hdeactivates : (db.bans.find id).any (deactivates db c) =
      (writableBan db c id).any fun b => (planLift b c.tenantId).isDeactivate :=
    (any_writableBan _).symm
  have hexcludes : (db.bans.find id).any (excludes db c) =
      (writableBan db c id).any fun b => (planLift b c.tenantId).isExclude :=
    (any_writableBan _).symm
  have htotal := h.total
  unfold planBatch
  split
  · rename_i hnone
    rw [hnone] at hdeactivates hexcludes
    refine ⟨?_, ?_, h.lifted, ?_⟩
    · simp [h.toDeactivate, List.filter_append, hdeactivates]
    · simp [h.toExclude, List.filter_append, hexcludes]
    · simp only [total_refuse, List.length_append, List.length_singleton]
      omega
  · rename_i ban hban
    rw [hban, Option.any_some] at hdeactivates hexcludes
    have hid : ban.id = id := by
      rw [writableBan, Option.filter_eq_some_iff] at hban
      exact (Table.find_eq_some.mp hban.1).2
    split
    · rename_i hplan
      rw [hplan] at hdeactivates hexcludes
      refine ⟨?_, ?_, h.lifted, ?_⟩
      · simp [h.toDeactivate, List.filter_append, hdeactivates, LiftPlan.isDeactivate]
      · simp [h.toExclude, List.filter_append, hexcludes, LiftPlan.isExclude]
      · simp only [total_refuse, List.length_append, List.length_singleton]
        omega
    · rename_i hplan
      rw [hplan] at hdeactivates hexcludes
      refine ⟨?_, ?_, h.lifted, ?_⟩
      · simp [h.toDeactivate, List.filter_append, hdeactivates, LiftPlan.isDeactivate]
      · simp [h.toExclude, List.filter_append, hexcludes, LiftPlan.isExclude, hid]
      · simp only [List.length_append, List.length_singleton]
        omega
    · rename_i hplan
      rw [hplan] at hdeactivates hexcludes
      refine ⟨?_, ?_, h.lifted, ?_⟩
      · simp [h.toDeactivate, List.filter_append, hdeactivates, LiftPlan.isDeactivate]
      · simp [h.toExclude, List.filter_append, hexcludes, LiftPlan.isExclude]
      · simp only [List.length_append, List.length_singleton]
        omega

theorem batchOf_foldl (db : Db) (c : Caller) (ids : List Nat) :
    BatchOf db c ids (ids.foldl (planBatch db c) ⟨[], [], ⟨0, 0, 0, 0, []⟩⟩) := by
  induction ids using List.reverseRecOn with
  | nil => exact ⟨rfl, rfl, rfl, rfl⟩
  | append_singleton ids id ih =>
    rw [List.foldl_append]
    exact batchOf_snoc ih

/-- The creator of the exclusions of a bulk Lift. -/
def bulkAuthor (c : Caller) : Option Nat := if c.userId > 0 then some c.userId else none

/-- The exclusions that a bulk Lift adds for some ids. -/
def bulkExclusions (c : Caller) (ids : List Nat) (db : Db) : List Exclusion :=
  (ids.filter fun id => !alreadyExcluded db c.tenantId id).map (⟨·, c.tenantId, bulkAuthor c⟩)

theorem bulkExclusions_congr {db' : Db} (h : ∀ k ∈ ids, alreadyExcluded db' c.tenantId k =
    alreadyExcluded db c.tenantId k) : bulkExclusions c ids db' = bulkExclusions c ids db := by
  unfold bulkExclusions
  refine congrArg (List.map _) (List.filter_congr fun k hk => ?_)
  rw [h k hk]

theorem foldl_excludeBatch {bs : List BanRow} (hbs : (bs.map (·.id)).Nodup) :
    (bs.foldl (excludeBatch c) (r, db)).2 =
        { db with exclusions := db.exclusions ++ bulkExclusions c (bs.map (·.id)) db } ∧
      (bs.foldl (excludeBatch c) (r, db)).1.total = r.total + bs.length ∧
      (bs.foldl (excludeBatch c) (r, db)).1.lifted = r.lifted := by
  induction bs generalizing r db with
  | nil => simp [bulkExclusions]
  | cons b bs ih =>
    obtain ⟨hb, hbs⟩ := List.nodup_cons.mp hbs
    rw [List.foldl_cons, List.map_cons, List.length_cons]
    cases halready : alreadyExcluded db c.tenantId b.id with
    | true =>
      have hstep : excludeBatch c (r, db) b = (r.refuse b.id
          ⟨409, .banAlreadyLiftedForTenant, "Already lifted on this tenant", []⟩, db) :=
        if_pos halready
      rw [hstep]
      obtain ⟨hdb, htotal, hlifted⟩ := @ih db (r.refuse b.id _) hbs
      refine ⟨?_, ?_, hlifted⟩
      · rw [hdb]
        simp [bulkExclusions, halready]
      · rw [htotal, total_refuse]
        omega
    | false =>
      have hnew : addExclusion db ⟨b.id, c.tenantId, bulkAuthor c⟩ =
          { db with exclusions := db.exclusions ++ [⟨b.id, c.tenantId, bulkAuthor c⟩] } :=
        if_neg (Bool.eq_false_iff.mp halready)
      have hstep : excludeBatch c (r, db) b = ({ r with excluded := r.excluded + 1 },
          { db with exclusions := db.exclusions ++ [⟨b.id, c.tenantId, bulkAuthor c⟩] }) := by
        rw [← hnew]
        exact if_neg (Bool.eq_false_iff.mp halready)
      rw [hstep]
      obtain ⟨hdb, htotal, hlifted⟩ :=
        @ih { db with exclusions := db.exclusions ++ [⟨b.id, c.tenantId, bulkAuthor c⟩] }
          { r with excluded := r.excluded + 1 } hbs
      have hsame : ∀ k ∈ bs.map (·.id), alreadyExcluded { db with exclusions :=
          db.exclusions ++ [⟨b.id, c.tenantId, bulkAuthor c⟩] } c.tenantId k =
            alreadyExcluded db c.tenantId k := by
        intro k hk
        have hne : b.id ≠ k := by
          rintro rfl
          exact hb hk
        simp [alreadyExcluded, hne]
      refine ⟨?_, ?_, hlifted⟩
      · rw [hdb, bulkExclusions_congr hsame]
        simp [bulkExclusions, halready]
      · rw [htotal]
        unfold BulkLiftResult.total
        dsimp only
        omega

theorem nodup_deactivated (db : Db) (now : Int) (ids : List Nat) (reason : LiftReason) :
    ((deactivateBans db now ids reason).1.map (·.id)).Nodup := by
  have hfold : ∀ (cs : List (List Nat)) (acc : List BanRow × Table BanRow.id),
      (acc.1.map (·.id)).Nodup →
      (∀ r ∈ acc.1, ∀ b ∈ acc.2.rows, b.id = r.id → b.isActive = false) →
        ((cs.foldl (deactivateChunk now reason) acc).1.map (·.id)).Nodup := by
    intro cs
    induction cs with
    | nil => exact fun _ h _ => h
    | cons chunk cs ih =>
      intro acc hnodup hdone
      rw [List.foldl_cons]
      apply ih
      · unfold deactivateChunk
        rw [List.map_append, List.map_map]
        refine List.nodup_append.mpr ⟨hnodup, acc.2.nodup.sublist (List.filter_sublist.map _), ?_⟩
        rintro k hk j hj rfl
        obtain ⟨r, hr, hrk⟩ := List.mem_map.mp hk
        obtain ⟨b, hb, hbk⟩ := List.mem_map.mp hj
        rw [List.mem_filter, Bool.and_eq_true_iff] at hb
        rw [hdone r hr b hb.1 (hbk.trans hrk.symm)] at hb
        exact absurd hb.2.2 Bool.false_ne_true
      · intro r hr b hb hid
        simp only [deactivateChunk, Table.mem_update] at hb
        obtain ⟨a, ha, rfl⟩ := hb
        split
        · rfl
        · rename_i hhit
          rw [if_neg hhit] at hid
          rcases List.mem_append.mp hr with hr | hr
          · exact hdone r hr a ha hid
          · obtain ⟨a', ha', rfl⟩ := List.mem_map.mp hr
            rw [List.mem_filter] at ha'
            rw [Table.eq_of_key ha ha'.1 hid] at hhit
            exact absurd ha'.2 hhit
  exact hfold _ _ .nil (by simp)

theorem length_deactivated (db : Db) (now : Int) (reason : LiftReason) (hids : ids.Nodup) :
    (deactivateBans db now ids reason).1.length =
      (ids.filter fun id => (deactivateBans db now ids reason).1.any fun b => b.id == id).length := by
  have hperm : ((deactivateBans db now ids reason).1.map (·.id)).Perm
      (ids.filter fun id => (deactivateBans db now ids reason).1.any fun b => b.id == id) := by
    refine (List.perm_ext_iff_of_nodup (nodup_deactivated _ _ _ _) (hids.filter _)).mpr fun k => ?_
    rw [List.mem_map, List.mem_filter, List.any_eq_true]
    constructor
    · rintro ⟨r, hr, rfl⟩
      obtain ⟨b, -, hid, -, rfl⟩ := mem_deactivated hr
      exact ⟨hid, _, hr, beq_self_eq_true _⟩
    · rintro ⟨-, r, hr, hk⟩
      exact ⟨r, hr, beq_iff_eq.mp hk⟩
  rw [← hperm.length_eq, List.length_map]

theorem total_foldl_refuse (p : Nat → Bool) (e : ApiError) (l : List Nat) (r : BulkLiftResult) :
    (l.foldl (fun r id => if p id then r else r.refuse id e) r).total =
      r.total + (l.filter fun id => !p id).length := by
  induction l generalizing r with
  | nil => rfl
  | cons k l ih =>
    rw [List.foldl_cons, ih, List.filter_cons]
    cases p k with
    | true => simp
    | false =>
      simp only [Bool.false_eq_true, if_false, Bool.not_false, if_true, List.length_cons,
        total_refuse]
      omega

theorem bulkLift_eq_lifted (hmember : assertOperatingMembership c = .ok ()) (ids : List Nat) :
    (bulkLift c now ids db).2 = liftedDb c (fun _ => now) (bulkAuthor c) (distinct ids) db ∧
      ∀ result, (bulkLift c now ids db).1 = .ok result → result.total = (distinct ids).length := by
  have hids : (distinct ids).Nodup := nodup_distinct ids
  obtain ⟨batch, hbatch⟩ : ∃ batch, batch = (distinct ids).foldl (planBatch db c)
    ⟨[], [], ⟨0, 0, 0, 0, []⟩⟩ := ⟨_, rfl⟩
  have h : BatchOf db c (distinct ids) batch := hbatch ▸ batchOf_foldl db c (distinct ids)
  have hexclude : (batch.toExclude.map (·.id)).Nodup := h.toExclude ▸ hids.filter _
  obtain ⟨hdb, htotal, hlifted⟩ := @foldl_excludeBatch c db batch.result batch.toExclude hexclude
  obtain ⟨excluded, hexcluded⟩ : ∃ excluded, excluded = batch.toExclude.foldl (excludeBatch c)
    (batch.result, db) := ⟨_, rfl⟩
  rw [← hexcluded] at hdb htotal hlifted
  have htoDeactivate : ∀ b ∈ db.bans.rows, (b.id ∈ batch.toDeactivate ∧ b.isActive = true ↔
      b.id ∈ distinct ids ∧ deactivates db c b = true) := by
    intro b hb
    rw [h.toDeactivate, List.mem_filter, Table.find_eq_some.mpr ⟨hb, rfl⟩, Option.any_some, and_assoc]
    exact and_congr_right fun _ => and_iff_left_of_imp active_of_deactivates
  have hexclusions : bulkExclusions c (batch.toExclude.map (·.id)) db =
      newExclusions c (bulkAuthor c) (distinct ids) db := by
    rw [h.toExclude, bulkExclusions, List.filter_filter, newExclusions]
    simp only [Bool.and_comm]
  unfold bulkLift
  rw [hmember]
  dsimp only
  rw [← hbatch, ← hexcluded, hdb]
  constructor
  · rw [hexclusions]
    show ({ (deactivateBans db now batch.toDeactivate .lift).2 with exclusions := _ } : Db) = _
    rw [@deactivateBans_eq_lifted c now (fun _ => now) db _ _ htoDeactivate fun _ _ => rfl]
    rfl
  · rintro result hresult
    have hdone := length_deactivated excluded.2 now .lift (h.toDeactivate ▸ hids.filter _)
    rw [hdb] at hdone
    have hsplit := List.length_eq_length_filter_add (l := batch.toDeactivate) fun id =>
      (deactivateBans excluded.2 now batch.toDeactivate .lift).1.any fun b => b.id == id
    rw [hdb] at hsplit
    have hall := h.total
    have hzero := h.lifted
    rw [← Except.ok.inj hresult, total_foldl_refuse]
    unfold BulkLiftResult.total at htotal hall ⊢
    dsimp only
    omega

end batch

/-! ## One after the other -/

/-- The row without the time of its Lift. -/
def BanRow.untimed (b : BanRow) : BanRow := { b with liftedAt := none }

/-- The ban and the tenant of an exclusion. -/
def Exclusion.key (e : Exclusion) : Nat × Nat := (e.banId, e.tenantId)

/-- A bulk Lift leaves the tables that the Lifts of its distinct ids leave, whenever these are made,
and counts every id once. A creator is recorded alike for a user of the platform. -/
theorem bulkLift_eq_liftEach (c : Caller) (now : Int) (time : Nat → Int) (ids : List Nat) (db : Db) :
    (bulkLift c now ids db).2.bans.rows.map BanRow.untimed =
        (liftEach c time (distinct ids) db).bans.rows.map BanRow.untimed ∧
      (bulkLift c now ids db).2.blockedIps = (liftEach c time (distinct ids) db).blockedIps ∧
      (bulkLift c now ids db).2.exclusions.map Exclusion.key =
        (liftEach c time (distinct ids) db).exclusions.map Exclusion.key ∧
      (0 < c.userId → bulkLift c now ids db =
        ((bulkLift c now ids db).1, liftEach c (fun _ => now) (distinct ids) db)) ∧
      ∀ result, (bulkLift c now ids db).1 = .ok result →
        result.lifted + result.excluded + result.skipped + result.refused = (distinct ids).length := by
  cases hmember : assertOperatingMembership c with
  | error e =>
    have hbulk : bulkLift c now ids db = (.error e, db) := by rw [bulkLift, hmember]
    have hlift : ∀ t id db, (lift c t id db).2 = db := by
      intro t id db
      rw [lift, hmember]
    have heach : ∀ (time : Nat → Int) l, liftEach c time l db = db := by
      intro time l
      induction l with
      | nil => rfl
      | cons id l ih =>
        rw [liftEach, List.foldl_cons, hlift]
        exact ih
    rw [hbulk, heach, heach]
    refine ⟨rfl, rfl, rfl, fun _ => rfl, ?_⟩
    intro result hresult
    contradiction
  | ok u =>
    obtain ⟨hbulk, htotal⟩ := @bulkLift_eq_lifted c now db hmember ids
    rw [liftEach_eq_lifted hmember (nodup_distinct ids),
      liftEach_eq_lifted hmember (nodup_distinct ids), hbulk]
    refine ⟨?_, rfl, ?_, ?_, htotal⟩
    · show List.map _ (List.map _ _) = List.map _ (List.map _ _)
      rw [List.map_map, List.map_map]
      refine List.map_congr_left fun b _ => ?_
      simp only [Function.comp_apply]
      split
      · rfl
      · rfl
    · show List.map _ (_ ++ _) = List.map _ (_ ++ _)
      rw [List.map_append, List.map_append]
      simp [newExclusions, Function.comp_def, Exclusion.key]
    · intro hauthor
      have hsame : bulkAuthor c = some c.userId := if_pos hauthor
      rw [← hsame, ← hbulk]

end Obliguard.Server

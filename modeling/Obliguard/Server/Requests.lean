import Obliguard.Server.WhitelistService

/-!
# Operator requests

The requests an operator can send, and what each of them leaves alone: `request_frame` says that no
request forgets a deactivated ban, enables a list entry or touches the events of agents. A Lift is a
deactivation of some ids (`liftRequest_eq`), and `liftRequest_lifted` says what it does to the row
that it lifts and to the list entries behind it.
-/

namespace Obliguard.Server

open Bans

/-- The requests an operator can send. -/
inductive OperatorRequest
  | createBan (membershipChecked : Bool) (req : CreateBanRequest)
  | lift (banId : Nat)
  | bulkLift (ids : List Nat)
  | excludeForTenant (banId : Nat)
  | removeExclusion (banId : Nat)
  | promoteToGlobal (banId : Nat)
  | createWhitelist (req : CreateWhitelistRequest)
  | deleteWhitelist (id : Nat)

/-- A request with its caller, its time and what the server reads from its surroundings. -/
structure Issued where
  request : OperatorRequest
  caller : Caller
  now : Int
  env : SafetyEnv
  castCidr : String → Option Net

/-- The tables after a request. -/
def Issued.run (i : Issued) (db : Db) : Db :=
  match i.request with
  | .createBan checked req => (createBan i.env i.caller i.now checked req db).2
  | .lift banId => (lift i.caller i.now banId db).2
  | .bulkLift ids => (bulkLift i.caller i.now ids db).2
  | .excludeForTenant banId => (excludeForTenant i.caller banId db).2
  | .removeExclusion banId => (removeExclusion i.caller.tenantId banId db).2
  | .promoteToGlobal banId => (promoteToGlobal i.env i.caller i.now banId db).2
  | .createWhitelist req => (createWhitelist i.castCidr i.caller i.now req db).2
  | .deleteWhitelist id => (deleteWhitelist i.caller id db).2

def runIssued (reqs : List Issued) (db : Db) : Db := reqs.foldl (fun db i => i.run db) db

/-! ## What requests leave alone -/

/-- What every request keeps of the history. -/
structure RequestFrame (db db' : Db) : Prop where
  inactive : ∀ b ∈ db.bans.rows, b.isActive = false → b ∈ db'.bans.rows
  entries : ∀ e' ∈ db'.blockedIps.rows, ∃ e ∈ db.blockedIps.rows,
    e'.blocklistId = e.blocklistId ∧ e'.ip = e.ip ∧ (e'.enabled = true → e.enabled = true)
  events : db'.events = db.events

namespace RequestFrame

variable {db db' db'' : Db}

theorem refl (db : Db) : RequestFrame db db :=
  ⟨fun _ hb _ => hb, fun e he => ⟨e, he, rfl, rfl, id⟩, rfl⟩

theorem trans (h1 : RequestFrame db db') (h2 : RequestFrame db' db'') : RequestFrame db db'' where
  inactive b hb hi := h2.inactive b (h1.inactive b hb hi) hi
  entries e'' he'' := by
    obtain ⟨e', he', hl', hip', hen'⟩ := h2.entries e'' he''
    obtain ⟨e, he, hl, hip, hen⟩ := h1.entries e' he'
    exact ⟨e, he, hl'.trans hl, hip'.trans hip, fun h => hen (hen' h)⟩
  events := h2.events.trans h1.events

theorem of_bans {bans : Table BanRow.id}
    (h : ∀ b ∈ db.bans.rows, b.isActive = false → b ∈ bans.rows) :
    RequestFrame db { db with bans := bans } := { refl db with inactive := h }

end RequestFrame

section frame
variable {db : Db} {now : Int}

theorem mem_deactivateBans_of_inactive {ids : List Nat} {reason : LiftReason} {b : BanRow}
    (hb : b ∈ db.bans.rows) (hi : b.isActive = false) :
    b ∈ (deactivateBans db now ids reason).2.bans.rows := by
  rw [deactivateBans_bans, Table.mem_update]
  refine ⟨b, hb, if_neg ?_⟩
  simp [isHit, hi]

theorem deactivateBans_frame_entries {ids : List Nat} {reason : LiftReason} {e' : BlockedIp}
    (he' : e' ∈ (deactivateBans db now ids reason).2.blockedIps.rows) :
    ∃ e ∈ db.blockedIps.rows, e'.blocklistId = e.blocklistId ∧ e'.ip = e.ip ∧
      (e'.enabled = true → e.enabled = true) := by
  by_cases hr : reason = .lift
  · rw [deactivateBans, if_pos hr] at he'
    dsimp only at he'
    rw [disableLiftedBlocklistEntries_eq, Table.mem_update] at he'
    obtain ⟨e, he, rfl⟩ := he'
    refine ⟨e, he, ?_⟩
    split
    · exact ⟨rfl, rfl, fun h => by simp [BlockedIp.disabled] at h⟩
    · exact ⟨rfl, rfl, id⟩
  · rw [deactivateBans_blockedIps hr] at he'
    exact ⟨e', he', rfl, rfl, id⟩

theorem frame_deactivateBans (now : Int) (ids : List Nat) (reason : LiftReason) :
    RequestFrame db (deactivateBans db now ids reason).2 where
  inactive _ hb hi := mem_deactivateBans_of_inactive hb hi
  entries _ he' := deactivateBans_frame_entries he'
  events := rfl

theorem frame_addExclusion (ex : Exclusion) : RequestFrame db (addExclusion db ex) := by
  unfold addExclusion
  split
  · exact RequestFrame.refl db
  · exact { RequestFrame.refl db with }

theorem frame_createBan {env : SafetyEnv} {c : Caller} {checked : Bool} {req : CreateBanRequest} :
    RequestFrame db (createBan env c now checked req db).2 := by
  unfold createBan
  split
  · exact RequestFrame.refl db
  · rename_i nb _
    have hstale : RequestFrame db (expireStale db now nb.target.net) := frame_deactivateBans _ _ _
    refine hstale.trans ?_
    unfold insertManual
    split
    · exact RequestFrame.refl _
    · split
      · exact RequestFrame.refl _
      · dsimp only
        split
        · exact RequestFrame.refl _
        · apply RequestFrame.of_bans
          intro b hb _
          exact Table.mem_insert.mpr (Or.inl hb)

theorem frame_promoteToGlobal {env : SafetyEnv} {c : Caller} {banId : Nat} :
    RequestFrame db (promoteToGlobal env c now banId db).2 := by
  unfold promoteToGlobal
  split
  · exact RequestFrame.refl db
  · rename_i t _
    have hstale : RequestFrame db (expireStale db now t.net) := frame_deactivateBans _ _ _
    refine hstale.trans ?_
    unfold promoteRow
    split
    · exact RequestFrame.refl _
    · split
      · exact RequestFrame.refl _
      · split
        · exact RequestFrame.refl _
        · split
          · exact RequestFrame.refl _
          · apply RequestFrame.of_bans
            intro b hb hi
            rw [Table.mem_update]
            exact ⟨b, hb, if_neg (by simp [hi])⟩

end frame

/-! ## Lifts -/

section lifts
variable {db : Db} {c : Caller} {now : Int}

theorem deactivateBans_nil (reason : LiftReason) : (deactivateBans db now [] reason).2 = db := by
  unfold deactivateBans
  split
  · rfl
  · rfl

theorem addExclusion_eq (db : Db) (ex : Exclusion) :
    ∃ exs, addExclusion db ex = { db with exclusions := exs } := by
  unfold addExclusion
  split
  · exact ⟨db.exclusions, rfl⟩
  · exact ⟨_, rfl⟩

theorem lift_eq (banId : Nat) : ∃ exs ids, (lift c now banId db).2 =
    (deactivateBans { db with exclusions := exs } now ids .lift).2 := by
  have hnone : ∃ exs ids, db = (deactivateBans { db with exclusions := exs } now ids .lift).2 :=
    ⟨db.exclusions, [], (deactivateBans_nil _).symm⟩
  unfold lift
  split
  · exact hnone
  · split
    · exact hnone
    · split
      · exact hnone
      · split
        · exact hnone
        · obtain ⟨exs, hexs⟩ := addExclusion_eq db ⟨banId, c.tenantId, some c.userId⟩
          exact ⟨exs, [], hexs.trans (deactivateBans_nil _).symm⟩
        · exact ⟨db.exclusions, [banId], rfl⟩

theorem excludeBatch_eq (r : BulkLiftResult) (db : Db) (b : BanRow) :
    ∃ r' exs, excludeBatch c (r, db) b = (r', { db with exclusions := exs }) := by
  unfold excludeBatch
  split
  · exact ⟨_, db.exclusions, rfl⟩
  · obtain ⟨exs, hexs⟩ := addExclusion_eq db
      ⟨b.id, c.tenantId, if c.userId > 0 then some c.userId else none⟩
    exact ⟨_, exs, Prod.ext rfl hexs⟩

theorem foldl_excludeBatch_eq (bans : List BanRow) (r : BulkLiftResult) (db : Db) :
    ∃ exs, (bans.foldl (excludeBatch c) (r, db)).2 = { db with exclusions := exs } := by
  induction bans generalizing r db with
  | nil => exact ⟨db.exclusions, rfl⟩
  | cons b bans ih =>
    obtain ⟨r', exs, hstep⟩ := @excludeBatch_eq c r db b
    rw [List.foldl_cons, hstep]
    exact ih r' { db with exclusions := exs }

theorem bulkLift_eq (ids : List Nat) : ∃ exs ids', (bulkLift c now ids db).2 =
    (deactivateBans { db with exclusions := exs } now ids' .lift).2 := by
  unfold bulkLift
  split
  · exact ⟨db.exclusions, [], (deactivateBans_nil _).symm⟩
  · dsimp only
    obtain ⟨exs, hexs⟩ := foldl_excludeBatch_eq
      ((distinct ids).foldl (planBatch db c) ⟨[], [], ⟨0, 0, 0, 0, []⟩⟩).toExclude
      ((distinct ids).foldl (planBatch db c) ⟨[], [], ⟨0, 0, 0, 0, []⟩⟩).result db
    rw [hexs]
    exact ⟨exs, _, rfl⟩

end lifts

/-- The request is a Lift, of one ban or of several. -/
def OperatorRequest.isLift : OperatorRequest → Bool
  | .lift _ | .bulkLift _ => true
  | _ => false

theorem liftRequest_eq {i : Issued} (h : i.request.isLift = true) (db : Db) : ∃ exs ids,
    i.run db = (deactivateBans { db with exclusions := exs } i.now ids .lift).2 := by
  obtain ⟨request, caller, now, env, castCidr⟩ := i
  cases request with
  | lift banId => exact lift_eq banId
  | bulkLift ids => exact bulkLift_eq ids
  | _ => contradiction

/-- Every request keeps the history. -/
theorem request_frame (i : Issued) (db : Db) : RequestFrame db (i.run db) := by
  by_cases hlift : i.request.isLift = true
  · obtain ⟨exs, ids, hrun⟩ := liftRequest_eq hlift db
    have hexs : RequestFrame db { db with exclusions := exs } := { RequestFrame.refl db with }
    rw [hrun]
    exact hexs.trans (frame_deactivateBans i.now ids .lift)
  · unfold Issued.run
    cases hr : i.request with
    | lift | bulkLift => simp [hr, OperatorRequest.isLift] at hlift
    | createBan checked req => exact frame_createBan
    | promoteToGlobal banId => exact frame_promoteToGlobal
    | excludeForTenant banId =>
      simp only [excludeForTenant]
      repeat' split
      all_goals first | exact RequestFrame.refl db | exact frame_addExclusion _
    | removeExclusion banId =>
      simp only [removeExclusion]
      split
      · exact { RequestFrame.refl db with }
      · exact RequestFrame.refl db
    | createWhitelist req =>
      simp only [createWhitelist]
      split
      · exact RequestFrame.refl db
      · split
        · exact RequestFrame.refl db
        · exact { RequestFrame.refl db with }
    | deleteWhitelist id =>
      simp only [deleteWhitelist]
      repeat' split
      all_goals first | exact RequestFrame.refl db | exact { RequestFrame.refl db with }

/-- The request lifts the ban: it is a Lift that finds the row active and leaves it inactive. -/
structure Lifts (i : Issued) (db : Db) (b : BanRow) : Prop where
  lift : i.request.isLift = true
  mem : b ∈ db.bans.rows
  active : b.isActive = true
  inactive : ∃ b' ∈ (i.run db).bans.rows, b'.id = b.id ∧ b'.isActive = false

theorem foldl_deactivateChunk_mono {now : Int} {reason : LiftReason} {r : BanRow}
    (cs : List (List Nat)) (acc : List BanRow × Table BanRow.id) (h : r ∈ acc.1) :
    r ∈ (cs.foldl (deactivateChunk now reason) acc).1 := by
  induction cs generalizing acc with
  | nil => exact h
  | cons c cs ih =>
    rw [List.foldl_cons]
    apply ih
    exact List.mem_append_left _ h

theorem mem_deactivated_of_mem {db : Db} {now : Int} {ids : List Nat} {reason : LiftReason}
    {b : BanRow} (hb : b ∈ db.bans.rows) (hact : b.isActive = true) (hid : b.id ∈ ids) :
    b.deactivated now reason ∈ (deactivateBans db now ids reason).2.bans.rows ∧
      b.deactivated now reason ∈ (deactivateBans db now ids reason).1 := by
  have hrow : b.deactivated now reason ∈ (deactivateBans db now ids reason).2.bans.rows := by
    rw [deactivateBans_bans, Table.mem_update]
    exact ⟨b, hb, if_pos ((isHit_iff hb).mpr ⟨hid, hact⟩)⟩
  refine ⟨hrow, ?_⟩
  -- the slice that holds the id meets the row still active
  have hslice : ∀ (cs : List (List Nat)) (acc : List BanRow × Table BanRow.id), b ∈ acc.2.rows →
      b.id ∈ cs.flatten → b.deactivated now reason ∈ (cs.foldl (deactivateChunk now reason) acc).1 := by
    intro cs
    induction cs with
    | nil =>
      intro acc _ h
      simp at h
    | cons c cs ih =>
      intro acc hmem h
      rw [List.foldl_cons]
      by_cases hc : b.id ∈ c
      · apply foldl_deactivateChunk_mono
        simp only [deactivateChunk, List.mem_append, List.mem_map, List.mem_filter]
        exact Or.inr ⟨b, ⟨hmem, by simp [hc, hact]⟩, rfl⟩
      · apply ih
        · simp only [deactivateChunk, Table.mem_update]
          exact ⟨b, hmem, if_neg (by simp [hc])⟩
        · simpa [hc] using h
  apply hslice _ _ hb
  have hmem : b.id ∈ (distinct ids).filter fun n => decide (0 < n) := by
    have := (db.bans.bounds b hb).1
    simp [hid, this]
  obtain ⟨c, hc, hbc⟩ := (mem_slices (n := deactivateChunkSize) (by decide)).mpr hmem
  exact List.mem_flatten.mpr ⟨c, hc, hbc⟩

theorem Lifts.spec {i : Issued} {db : Db} {b : BanRow} (h : Lifts i db b) :
    b.deactivated i.now .lift ∈ (i.run db).bans.rows ∧
      ∀ e ∈ (i.run db).blockedIps.rows, e.enabled = true → isLiftedEntry b e = false := by
  obtain ⟨exs, ids, hrun⟩ := liftRequest_eq h.lift db
  obtain ⟨b', hb', hid, hin⟩ := h.inactive
  have hids : b.id ∈ ids := by
    by_contra hn
    have hmem : b ∈ (deactivateBans { db with exclusions := exs } i.now ids .lift).2.bans.rows :=
      mem_deactivateBans_of_not_mem h.mem hn
    rw [hrun] at hb'
    rw [Table.eq_of_key hb' hmem hid, h.active] at hin
    contradiction
  have hdone : b.deactivated i.now .lift ∈
        (deactivateBans { db with exclusions := exs } i.now ids .lift).2.bans.rows ∧
      b.deactivated i.now .lift ∈ (deactivateBans { db with exclusions := exs } i.now ids .lift).1 :=
    mem_deactivated_of_mem h.mem h.active hids
  rw [hrun]
  refine ⟨hdone.1, ?_⟩
  intro e he hen
  rw [deactivateBans, if_pos rfl] at he
  dsimp only at he
  rw [disableLiftedBlocklistEntries_eq, Table.mem_update] at he
  obtain ⟨f, hf, rfl⟩ := he
  split at hen
  · simp [BlockedIp.disabled] at hen
  · rename_i hn
    rw [if_neg hn]
    by_contra hlifted
    apply hn
    rw [Bool.and_eq_true, List.any_eq_true]
    exact ⟨hen, b.deactivated i.now .lift, hdone.2, (Bool.not_eq_false _).mp hlifted⟩

end Obliguard.Server

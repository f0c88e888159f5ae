import Obliguard.Server.BanEngine
import Obliguard.Server.Enforcement

/-!
# The running server

Operator requests, the blocklist service, the intake of events and the cycles of the BanEngine, in
any order. Two inversions carry the results about whole runs: `listStep_effect` says what the
blocklist service can do to the bans, and `step_inactive` that a deactivated ban stays in the
history with the time and the reason of its deactivation.
-/

namespace Obliguard.Server

open Bans Runs

/-- `wipeAll`: every active ban is deactivated. -/
def wipeAll (now : Int) (db : Db) : Db :=
  (deactivateBans db now ((db.bans.rows.filter (·.isActive)).map (·.id)) .wipe).2

inductive SystemAction
  | request (i : Issued)
  | list (a : ListAction)
  | wipeAll
  | ingest (b : EventBatch)
  | cycle (c : EngineCycle)

/-- One step; a request is served at the time of the clock. -/
def systemStep (env : SafetyEnv) (s : ListState) : SystemAction → Option ListState
  | .request i => if i.now = s.now then some { s with db := i.run s.db } else none
  | .list a => listStep env s a
  | .wipeAll => some { s with db := Server.wipeAll s.now s.db }
  | .ingest b => some { s with db := Server.ingest b s.now s.db }
  | .cycle c => some { s with db := c.run s.now s.db }

/-! ## The blocklist service -/

section lists
variable {env : SafetyEnv} {s s' : ListState} {a : ListAction} {b : BanRow}

theorem reconciled_events {list : Blocklist} {db : Db} (h : reconciled env s a = some (list, db)) :
    db.events = s.db.events := by
  cases a with
  | sync id body =>
    obtain ⟨l, -, h⟩ := Option.bind_eq_some_iff.mp h
    obtain ⟨ws, -, h⟩ := Option.map_eq_some_iff.mp h
    obtain ⟨rfl, rfl⟩ := Prod.mk.inj h
    rfl
  | toggle id enabled tenantId =>
    obtain ⟨l, -, h⟩ := Option.map_eq_some_iff.mp h
    obtain ⟨rfl, rfl⟩ := Prod.mk.inj h
    rfl
  | update id tenantId patch =>
    obtain ⟨l, -, h⟩ := Option.map_eq_some_iff.mp h
    obtain ⟨rfl, rfl⟩ := Prod.mk.inj h
    rfl
  | delete | create | expireBans | pass | ban => contradiction

/-- A step of the blocklist service reconciles a list on the bans it finds, deactivates bans, or
inserts one of another origin. -/
theorem listStep_effect (h : listStep env s a = some s') : s'.db.events = s.db.events ∧
    ((∃ list db, db.bans = s.db.bans ∧ s'.db = reconcileListBans env s.now list db) ∨
      (∃ ids reason, s'.db.bans = (deactivateBans s.db s.now ids reason).2.bans) ∨
      ∃ row, a = .ban row ∧ s'.db.bans = insertForeign s.db.bans row) := by
  have hsame : ∀ bans, bans = s.db.bans →
      ∃ ids reason, bans = (deactivateBans s.db s.now ids reason).2.bans := by
    rintro _ rfl
    exact ⟨[], .expiry, by rw [deactivateBans_nil]⟩
  cases hr : reconciled env s a with
  | some r =>
    obtain ⟨list, db⟩ := r
    obtain ⟨hstep, hbut, -⟩ := reconciled_spec hr
    rw [hstep] at h
    rw [← Option.some.inj h]
    refine ⟨?_, Or.inl ⟨list, db, hbut.bans, rfl⟩⟩
    have hevents := reconciled_events hr
    rw [reconcile_frame]
    exact hevents
  | none =>
    cases a with
    | sync id body =>
      rw [← Option.some.inj h]
      have hquiet : syncOne env s.now id body s.db = s.db := by
        unfold syncOne
        split
        · rfl
        · rename_i l hl
          simp only [reconciled, hl, Option.bind_some, Option.map_eq_none_iff] at hr
          rw [hr]
      simp only [hquiet]
      exact ⟨trivial, Or.inr (Or.inl (hsame _ rfl))⟩
    | toggle id enabled tenantId =>
      rw [← Option.some.inj h]
      simp only [toggleIp]
      split
      · exact ⟨rfl, Or.inr (Or.inl (hsame _ rfl))⟩
      · rename_i l hl
        simp only [reconciled, hl, Option.map_eq_none_iff, Option.filter_eq_none_iff] at hr
        have hoff : l.enforce = false := by simpa using hr l rfl
        simp only [hoff, Bool.false_eq_true, if_false]
        exact ⟨trivial, Or.inr (Or.inl (hsame _ rfl))⟩
    | update id tenantId patch =>
      rw [← Option.some.inj h]
      simp only [updateList]
      split
      · exact ⟨rfl, Or.inr (Or.inl (hsame _ rfl))⟩
      · rename_i l hl
        simp only [reconciled, hl, Option.map_eq_none_iff, Option.filter_eq_none_iff] at hr
        have hp : (l.patched patch).enforce = l.enforce := by simpa using hr l rfl
        simp only [hp, bne_self_eq_false, Bool.false_eq_true, if_false]
        exact ⟨trivial, Or.inr (Or.inl (hsame _ rfl))⟩
    | delete id tenantId =>
      rw [← Option.some.inj h]
      simp only [deleteList]
      split
      · exact ⟨rfl, Or.inr (Or.inl (hsame _ rfl))⟩
      · exact ⟨rfl, Or.inr (Or.inl ⟨_, _, rfl⟩)⟩
    | create name url sourceType apiKey enforce tenantId =>
      rw [← Option.some.inj h]
      exact ⟨rfl, Or.inr (Or.inl (hsame _ rfl))⟩
    | expireBans =>
      rw [← Option.some.inj h]
      exact ⟨rfl, Or.inr (Or.inl ⟨_, _, rfl⟩)⟩
    | pass time =>
      simp only [listStep] at h
      split at h
      · rw [← Option.some.inj h]
        exact ⟨rfl, Or.inr (Or.inl (hsame _ rfl))⟩
      · contradiction
    | ban row =>
      rw [← Option.some.inj h]
      exact ⟨rfl, Or.inr (Or.inr ⟨row, rfl, rfl⟩)⟩

theorem isWithdrawn_of_inactive {db : Db} {listId : Nat} (hi : b.isActive = false) :
    isWithdrawn db listId b = false := by
  by_contra hw
  have hlist := isListBan_of_isWithdrawn ((Bool.not_eq_false _).mp hw)
  rw [isActive_of_isListBan hlist] at hi
  contradiction

theorem listStep_inactive (h : listStep env s a = some s') (hb : b ∈ s.db.bans.rows)
    (hi : b.isActive = false) : b ∈ s'.db.bans.rows := by
  obtain ⟨-, ⟨list, db, hbans, hdb⟩ | ⟨ids, reason, hbans⟩ | ⟨row, -, hbans⟩⟩ := listStep_effect h
  · rw [hdb]
    exact mem_reconcile (hbans ▸ hb) (isWithdrawn_of_inactive hi)
  · rw [hbans]
    exact mem_deactivateBans_of_inactive hb hi
  · rw [hbans]
    unfold insertForeign
    split
    · exact Table.mem_insert.mpr (Or.inl hb)
    · exact hb

theorem new_of_mem_reconcile {now : Int} {list : Blocklist} {db : Db}
    (hb : b ∈ (reconcileListBans env now list db).bans.rows) (hnew : db.bans.seq ≤ b.id) :
    IsNewBan env db list b := by
  have hold : ∀ ids reason, b ∉ (deactivateBans db now ids reason).2.bans.rows := by
    intro ids reason hmem
    have hlt := (Table.bounds _ b hmem).2
    rw [deactivateBans_bans] at hlt
    exact absurd hlt (Nat.not_lt.mpr hnew)
  unfold reconcileListBans at hb
  split at hb
  · rcases mem_foldl_insertRemoteChunk hb with hb | ⟨c, hc, t, ht, id, rfl⟩
    · exact absurd hb (hold _ _)
    · have hmem := (mem_slices (by decide)).mp ⟨c, hc, ht⟩
      obtain ⟨e, he, hban, hcheck⟩ := mem_missingTargets hmem
      rw [deactivateBans_blockedIps (by simp)] at he
      exact ⟨e, he, hban, t.target, hcheck, t.reason, id, rfl⟩
  · exact absurd hb (hold _ _)

end lists

/-! ## History -/

/-- A deactivated row stays as it is, whatever the server does. -/
theorem step_inactive {env : SafetyEnv} {s s' : ListState} {a : SystemAction} {b : BanRow}
    (h : systemStep env s a = some s') (hb : b ∈ s.db.bans.rows) (hi : b.isActive = false) :
    b ∈ s'.db.bans.rows := by
  cases a with
  | request i =>
    simp only [systemStep] at h
    split at h
    · rw [← Option.some.inj h]
      exact (request_frame i s.db).inactive b hb hi
    · contradiction
  | list a => exact listStep_inactive h hb hi
  | wipeAll =>
    rw [← Option.some.inj h]
    exact mem_deactivateBans_of_inactive hb hi
  | ingest e =>
    rw [← Option.some.inj h]
    simp only [Server.ingest]
    split
    · exact hb
    · exact hb
  | cycle c =>
    rw [← Option.some.inj h]
    exact cycle_frame.inactive b hb hi

end Obliguard.Server

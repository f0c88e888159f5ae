import Obliguard.Server.UpdateBudget

/-!
# Succeeded attempts

Every statement but two leaves a succeeded attempt as it is: a counted offer, which starts it again,
and the update of `setDeviceUpdating`, which is by id alone and comes after the select that found the
attempt open. `succeeded_kept` is about the runs in which no attempt succeeds between the two;
`succeeded_reopened` is a run in which one does.
-/

namespace Obliguard.Server

open Runs

/-- The condition: the attempt that `setDeviceUpdating` selected has not succeeded by the time it is
updated. -/
def stillOpen (s : UpdateServer) : UpdateAction → Bool
  | .next t => match s.procs.get t with
    | some (.updatingWrite attempt _) => (s.attempts.find attempt).all (·.phase != .succeeded)
    | _ => true
  | _ => true

theorem cond_succeeded {s : UpdateServer} {a : UpdateAction} {w : AttemptWrite}
    {r : UpdateAttemptRow} (horigin : w.Origin s a) (hr : r.phase = .succeeded)
    (hcond : w.cond r = true) :
    (∃ now, w = .recordOffer r.deviceId r.targetVersion now) ∨
    (∃ now, w = .install (attemptKey r) now) ∨ (w.set r).phase = .succeeded := by
  cases w with
  | recordOffer deviceId version now =>
    simp only [AttemptWrite.cond, Bool.and_eq_true, beq_iff_eq] at hcond
    obtain ⟨rfl, rfl⟩ := Prod.mk.inj hcond.1.1
    exact .inl ⟨now, rfl⟩
  | install attempt now =>
    simp only [AttemptWrite.cond, beq_iff_eq] at hcond
    exact .inr (.inl ⟨now, by rw [hcond]⟩)
  | revert attempt phase now =>
    simp only [AttemptWrite.cond, Bool.and_eq_true, beq_iff_eq] at hcond
    rw [AttemptWrite.Origin, ← hcond.2, hr] at horigin
    simp at horigin
  | succeed => exact .inr (.inr rfl)
  | restoreBudget | applyStatus | cancel | noProgress | timeOut =>
    simp [AttemptWrite.cond, hr, AgentUpdatePhase.isProgress] at hcond

theorem succeeded_step {s s' : UpdateServer} {a : UpdateAction} (hok : stillOpen s a = true)
    (hs : updateStep s a = some s') {k : Nat × List Char} {r : UpdateAttemptRow}
    (hr : s.attempts.find k = some r) (hphase : r.phase = .succeeded) :
    (∃ r', s'.attempts.find k = some r' ∧ r'.phase = .succeeded) ∨
      ∃ now, s'.log = s.log ++ [.offered k now] := by
  rcases updateStep_writes hs with ⟨hattempts, -⟩ | ⟨w, hattempts, hlog, horigin⟩
  · rw [hattempts]
    exact .inl ⟨r, hr, hphase⟩
  · rw [hattempts, hlog]
    have hfind := w.find_exec s.attempts k
    rw [hr] at hfind
    dsimp only at hfind
    have hkey := (Keyed.find_eq_some.mp hr).2
    by_cases hcond : w.cond r = true
    · rw [if_pos hcond] at hfind
      rcases cond_succeeded horigin hphase hcond with ⟨now, rfl⟩ | ⟨now, rfl⟩ | hset
      · -- the offer is counted
        right
        refine ⟨now, ?_⟩
        have hhits : (AttemptWrite.recordOffer r.deviceId r.targetVersion now).hits s.attempts
            (r.deviceId, r.targetVersion) = true := by
          rw [AttemptWrite.hits, show (r.deviceId, r.targetVersion) = k from hkey, hr]
          exact hcond
        rw [AttemptWrite.events, if_pos hhits, show (r.deviceId, r.targetVersion) = k from hkey]
      · -- the update of `setDeviceUpdating`, which the condition excludes
        obtain ⟨t, rfl, ht⟩ := horigin
        simp only [stillOpen, ht] at hok
        rw [hkey, hr, Option.all_some, hphase] at hok
        contradiction
      · exact .inl ⟨_, hfind, hset⟩
    · rw [if_neg hcond] at hfind
      exact .inl ⟨r, hfind, hphase⟩

theorem log_step {s s' : UpdateServer} {a : UpdateAction} (hs : updateStep s a = some s') :
    ∃ l, s'.log = s.log ++ l := by
  rcases updateStep_writes hs with ⟨-, hlog⟩ | ⟨w, -, hlog, -⟩
  · exact ⟨[], by rw [hlog, List.append_nil]⟩
  · exact ⟨_, hlog⟩

/-- In every run under the condition, an attempt that has succeeded stays so until an offer of it is
counted. -/
theorem succeeded_kept (s0 : UpdateServer) (as bs : List UpdateAction) (s s' : UpdateServer)
    (hok : StepsMeet updateStep (fun s a => stillOpen s a) s0 (as ++ bs))
    (h : run updateStep s0 as = some s) (h' : run updateStep s bs = some s') (k : Nat × List Char)
    (r : UpdateAttemptRow) (hr : s.attempts.find k = some r) (hphase : r.phase = .succeeded) :
    ∃ l, s'.log = s.log ++ l ∧
      ((∃ r', s'.attempts.find k = some r' ∧ r'.phase = .succeeded) ∨ ∃ now, .offered k now ∈ l) := by
  refine run_invariant (P := fun t => ∃ l, t.log = s.log ++ l ∧
    ((∃ r', t.attempts.find k = some r' ∧ r'.phase = .succeeded) ∨ ∃ now, .offered k now ∈ l)) ?_
    ⟨[], (List.append_nil _).symm, .inl ⟨r, hr, hphase⟩⟩ ((stepsMeet_append.mp hok).2 s h) h'
  rintro t a t' ⟨l, hl, hcases⟩ hmeet hs
  rcases hcases with ⟨r', hr', hphase'⟩ | ⟨now, hoffer⟩
  · rcases succeeded_step hmeet hs hr' hphase' with hkept | ⟨now, hlog⟩
    · obtain ⟨l', hl'⟩ := log_step hs
      exact ⟨l ++ l', by rw [hl', hl, List.append_assoc], .inl hkept⟩
    · exact ⟨l ++ [.offered k now], by rw [hlog, hl, List.append_assoc], .inr ⟨now, by simp⟩⟩
  · obtain ⟨l', hl'⟩ := log_step hs
    exact ⟨l ++ l', by rw [hl', hl, List.append_assoc], .inr ⟨now, List.mem_append_left _ hoffer⟩⟩

/-- The agent is offered the version, reports that it is installing it, and then runs it. -/
def updated : List UpdateAction :=
  offerTo 1 0 ++ [.updating 1 0 1, .next 1, .next 1, .selectOpen 1 (some newVersion), .next 1,
    .reconcile 2 0 newVersion none, .next 2, .next 2]

/-- And reports once more, late. -/
def updatingAgain : List UpdateAction :=
  [.updating 1 0 1, .next 1, .next 1, .selectOpen 1 none, .next 1, .next 1]

theorem succeeded_kept_updated : ∃ s s', run updateStep (updateFleet 1) updated = some s ∧
    run updateStep s updatingAgain = some s' ∧
    ∃ l, s'.log = s.log ++ l ∧ ((∃ r', s'.attempts.find (0, newVersion) = some r' ∧
      r'.phase = .succeeded) ∨ ∃ now, .offered (0, newVersion) now ∈ l) := by
  have hphase : (run updateStep (updateFleet 1) updated).bind (fun s =>
      (s.attempts.find (0, newVersion)).map (·.phase)) = some .succeeded := by decide +kernel
  obtain ⟨s, hs, hphase⟩ := Option.bind_eq_some_iff.mp hphase
  obtain ⟨r, hr, hphase⟩ := Option.map_eq_some_iff.mp hphase
  have hrun : (run updateStep (updateFleet 1) (updated ++ updatingAgain)).isSome := by decide +kernel
  obtain ⟨s', hs'⟩ := Option.isSome_iff_exists.mp hrun
  obtain ⟨t, ht, hs'⟩ := run_append.mp hs'
  obtain rfl := Option.some.inj (hs.symm.trans ht)
  exact ⟨s, s', hs, hs', succeeded_kept (updateFleet 1) updated updatingAgain s s'
    (by decide +kernel) hs hs' (0, newVersion) r hr hphase⟩

/-- `setDeviceUpdating` selects the open attempt; before its update a heartbeat reports the version. -/
def lateUpdating : List UpdateAction :=
  offerTo 1 0 ++ [.updating 1 0 1, .next 1, .next 1, .selectOpen 1 (some newVersion),
    .reconcile 2 0 newVersion none, .next 2, .next 2]

/-- The succeeded attempt becomes installing, and no offer is counted. -/
theorem succeeded_reopened : ¬ ∀ (s0 : UpdateServer) (as bs : List UpdateAction) (s s' : UpdateServer),
    run updateStep s0 as = some s → run updateStep s bs = some s' →
    ∀ k r, s.attempts.find k = some r → r.phase = .succeeded →
      ∃ l, s'.log = s.log ++ l ∧
        ((∃ r', s'.attempts.find k = some r' ∧ r'.phase = .succeeded) ∨
          ∃ now, .offered k now ∈ l) := by
  intro h
  have hbefore : (run updateStep (updateFleet 1) lateUpdating).map (fun s =>
      ((s.attempts.find (0, newVersion)).map (·.phase), s.log)) =
        some (some .succeeded, [.offered (0, newVersion) 0, .reset (0, newVersion)]) := by
    decide +kernel
  have hafter : (run updateStep (updateFleet 1) (lateUpdating ++ [.next 1])).map (fun s =>
      ((s.attempts.find (0, newVersion)).map (·.phase), s.log)) =
        some (some .installing, [.offered (0, newVersion) 0, .reset (0, newVersion)]) := by
    decide +kernel
  obtain ⟨s, hs, hbefore⟩ := Option.map_eq_some_iff.mp hbefore
  obtain ⟨s', hs', hafter⟩ := Option.map_eq_some_iff.mp hafter
  obtain ⟨t, ht, hs'⟩ := run_append.mp hs'
  obtain rfl := Option.some.inj (hs.symm.trans ht)
  obtain ⟨hphase, hlog⟩ := Prod.mk.inj hbefore
  obtain ⟨hphase', hlog'⟩ := Prod.mk.inj hafter
  obtain ⟨r, hr, hphase⟩ := Option.map_eq_some_iff.mp hphase
  obtain ⟨l, hl, ⟨r', hr', hkept⟩ | ⟨now, hoffer⟩⟩ := h (updateFleet 1) lateUpdating [.next 1] s s'
    hs hs' (0, newVersion) r hr hphase
  · rw [hr', Option.map_some, hkept] at hphase'
    contradiction
  · rw [hlog, hlog', List.self_eq_append_right] at hl
    rw [hl] at hoffer
    contradiction

end Obliguard.Server

import Obliguard.Server.UpdateServer

/-!
# The offer budget of a device

Whatever interleaves, two counted offers of the same device and target are more than ten minutes
apart, and at most three are counted between two resets of the budget (`offers_budgeted`). Since every
step writes the attempts by one of the statements of `AttemptWrite` (`updateStep_writes`), the
invariant `OfferInv` has to be kept by these alone.
-/

namespace Obliguard.Server

open Budget Runs

/-! ## The invariant -/

/-- What an attempt has used of its budget. -/
def usedBudget : Option UpdateAttemptRow → Nat
  | some r => if r.phase.isFresh then 0 else r.offeredCount
  | none => 0

/-- The offers of a pair, spaced and within the budget, and what the row remembers of them. -/
structure OfferInv (t : Keyed attemptKey) (log : List AttemptEvent) : Prop where
  spaced : (offers log).Pairwise fun o o' => o.1 = o'.1 → o.2 + updateOfferMinIntervalMs < o'.2
  last : ∀ o ∈ offers log, ∃ r, t.find o.1 = some r ∧ ∃ l, r.lastOfferedAt = some l ∧ o.2 ≤ l
  within : ∀ k, Within (AttemptEvent.isOffer k) (AttemptEvent.isReset k) updateRequestMaxOffers log
  spent : ∀ k, since (AttemptEvent.isOffer k) (AttemptEvent.isReset k) log ≤ usedBudget (t.find k)

theorem offers_append (log l : List AttemptEvent) : offers (log ++ l) = offers log ++ offers l :=
  List.filterMap_append

/-- The statements other than the offer. -/
def AttemptWrite.isOffer : AttemptWrite → Bool
  | .recordOffer .. => true
  | _ => false

section other
variable {w : AttemptWrite} (hw : w.isOffer = false)
include hw

theorem lastOfferedAt_set (r : UpdateAttemptRow) : (w.set r).lastOfferedAt = r.lastOfferedAt := by
  cases w with
  | recordOffer => contradiction
  | restoreBudget | applyStatus | install | succeed | revert | cancel | noProgress | timeOut => rfl

theorem eq_reset_of_mem_events {t : Keyed attemptKey} {e : AttemptEvent} (he : e ∈ w.events t) :
    ∃ k, e = .reset k := by
  cases w with
  | recordOffer => contradiction
  | restoreBudget | succeed | cancel =>
    obtain ⟨r, -, rfl⟩ := List.mem_map.mp he
    exact ⟨_, rfl⟩
  | applyStatus | install | revert | noProgress | timeOut => contradiction

theorem offers_events (t : Keyed attemptKey) : offers (w.events t) = [] := by
  rw [offers, List.filterMap_eq_nil_iff]
  intro e he
  obtain ⟨k, rfl⟩ := eq_reset_of_mem_events hw he
  rfl

theorem isOffer_of_mem_events {t : Keyed attemptKey} {e : AttemptEvent} (he : e ∈ w.events t)
    (k : Nat × List Char) : e.isOffer k = false := by
  obtain ⟨k', rfl⟩ := eq_reset_of_mem_events hw he
  rfl

theorem reset_or_used {t : Keyed attemptKey} {k : Nat × List Char} {r : UpdateAttemptRow}
    (hr : t.find k = some r) (hcond : w.cond r = true) :
    (∃ e ∈ w.events t, e.isReset k = true) ∨ usedBudget (some r) ≤ usedBudget (some (w.set r)) := by
  obtain ⟨hmem, hkey⟩ := Keyed.find_eq_some.mp hr
  have hreset : ∃ e ∈ (t.rows.filter w.cond).map fun r => AttemptEvent.reset (attemptKey r),
      e.isReset k = true := by
    refine ⟨.reset (attemptKey r), ?_, ?_⟩
    · exact List.mem_map.mpr ⟨r, List.mem_filter.mpr ⟨hmem, hcond⟩, rfl⟩
    · rw [AttemptEvent.isReset, hkey, beq_self_eq_true]
  have hused : (w.set r).phase.isFresh = false → (w.set r).offeredCount = r.offeredCount →
      usedBudget (some r) ≤ usedBudget (some (w.set r)) := by
    intro hfresh hcount
    rw [usedBudget, usedBudget, hfresh, hcount]
    split
    · exact Nat.zero_le _
    · exact Nat.le_refl _
  cases w with
  | recordOffer => contradiction
  | restoreBudget | succeed | cancel => exact .inl hreset
  | applyStatus deviceId st now =>
    refine .inr (hused ?_ rfl)
    have hreported := st.reported
    show st.phase.isFresh = false
    revert hreported
    cases st.phase with
    | offered | downloading | verifying | installing | restarting | failed => exact fun _ => rfl
    | succeeded | cancelled => exact fun h => Bool.noConfusion h
  | install | revert | noProgress | timeOut => exact .inr (hused rfl rfl)

theorem offerInv_other {t : Keyed attemptKey} {log : List AttemptEvent} (h : OfferInv t log) :
    OfferInv (w.exec t) (log ++ w.events t) where
  spaced := by
    rw [offers_append, offers_events hw, List.append_nil]
    exact h.spaced
  last := by
    rw [offers_append, offers_events hw, List.append_nil]
    intro o ho
    obtain ⟨r, hr, l, hl, hle⟩ := h.last o ho
    refine ⟨_, (w.find_exec t o.1).trans (by rw [hr]), l, ?_, hle⟩
    split
    · rw [lastOfferedAt_set hw, hl]
    · exact hl
  within := fun k => (h.within k).append fun e he => isOffer_of_mem_events hw he k
  spent := by
    intro k
    have hle : since (AttemptEvent.isOffer k) (AttemptEvent.isReset k) (log ++ w.events t) ≤
        since (AttemptEvent.isOffer k) (AttemptEvent.isReset k) log :=
      since_append_le fun e he => isOffer_of_mem_events hw he k
    have hspent := h.spent k
    rw [w.find_exec]
    cases hr : t.find k with
    | none =>
      rw [hr] at hspent
      exact Nat.le_trans (Nat.le_trans hle hspent) (Nat.zero_le _)
    | some r =>
      rw [hr] at hspent
      dsimp only
      by_cases hcond : w.cond r = true
      · rw [if_pos hcond]
        rcases reset_or_used hw hr hcond with hreset | hused
        · rw [since_append_eq_zero (fun e he => isOffer_of_mem_events hw he k) hreset]
          exact Nat.zero_le _
        · omega
      · rw [if_neg hcond]
        omega

end other

section offer
variable {t : Keyed attemptKey} {log : List AttemptEvent} {deviceId : Nat} {version : List Char}
  {now : Int}

theorem find_exec_of_ne {k : Nat × List Char} (hk : (deviceId, version) ≠ k) :
    ((AttemptWrite.recordOffer deviceId version now).exec t).find k = t.find k := by
  rw [AttemptWrite.find_exec]
  cases hr : t.find k with
  | none =>
    dsimp only
    rw [AttemptWrite.inserts, Option.filter_some, if_neg]
    intro hdec
    exact hk (of_decide_eq_true hdec)
  | some r =>
    dsimp only
    rw [if_neg]
    intro hcond
    have hkey := AttemptWrite.key_of_cond rfl hcond
    rw [(Keyed.find_eq_some.mp hr).2] at hkey
    exact hk hkey

theorem find_exec_of_not_hits
    (h : (AttemptWrite.recordOffer deviceId version now).hits t (deviceId, version) = false)
    (k : Nat × List Char) :
    ((AttemptWrite.recordOffer deviceId version now).exec t).find k = t.find k := by
  by_cases hk : (deviceId, version) = k
  · rw [AttemptWrite.find_exec]
    rw [AttemptWrite.hits, hk] at h
    cases hr : t.find k with
    | none =>
      rw [hr] at h
      simp [AttemptWrite.inserts, attemptKey, hk] at h
    | some r =>
      rw [hr] at h
      dsimp only at h ⊢
      rw [h]
      rfl
  · exact find_exec_of_ne hk

theorem find_exec_of_hits
    (h : (AttemptWrite.recordOffer deviceId version now).hits t (deviceId, version) = true) :
    (∃ r, ((AttemptWrite.recordOffer deviceId version now).exec t).find (deviceId, version) = some r ∧
      r.lastOfferedAt = some now ∧ r.phase = .offered ∧
      r.offeredCount = usedBudget (t.find (deviceId, version)) + 1) ∧
    usedBudget (t.find (deviceId, version)) < updateRequestMaxOffers ∧
    ∀ r l, t.find (deviceId, version) = some r → r.lastOfferedAt = some l →
      l + updateOfferMinIntervalMs < now := by
  rw [AttemptWrite.find_exec]
  rw [AttemptWrite.hits] at h
  cases hr : t.find (deviceId, version) with
  | none =>
    refine ⟨⟨⟨deviceId, version, 1, some now, .offered, none, now, now, none⟩, ?_, rfl, rfl, rfl⟩,
      by decide, ?_⟩
    · simp [AttemptWrite.inserts, attemptKey]
    · intro r l hnone
      contradiction
  | some r =>
    rw [hr] at h
    dsimp only at h ⊢
    rw [if_pos h]
    simp only [AttemptWrite.cond, Bool.and_eq_true, Bool.or_eq_true, decide_eq_true_eq] at h
    obtain ⟨⟨-, hlast⟩, hbudget⟩ := h
    refine ⟨⟨_, rfl, rfl, rfl, ?_⟩, ?_, ?_⟩
    · show (if r.phase.isFresh then 1 else r.offeredCount + 1) = _
      rw [usedBudget]
      split
      · rfl
      · rfl
    · rw [usedBudget]
      split
      · decide
      · rename_i hfresh
        exact hbudget.resolve_left hfresh
    · intro r' l hr' hl
      rw [← Option.some.inj hr'] at hl
      rw [hl, Option.all_some, decide_eq_true_eq] at hlast
      omega

theorem offerInv_recordOffer (h : OfferInv t log) :
    OfferInv ((AttemptWrite.recordOffer deviceId version now).exec t)
      (log ++ (AttemptWrite.recordOffer deviceId version now).events t) := by
  rw [AttemptWrite.events]
  by_cases hhits : (AttemptWrite.recordOffer deviceId version now).hits t (deviceId, version) = true
  · rw [if_pos hhits]
    obtain ⟨⟨r', hr', hlast', hphase', hcount'⟩, hbudget, hspacing⟩ := find_exec_of_hits hhits
    have hsince : ∀ k, since (AttemptEvent.isOffer k) (AttemptEvent.isReset k)
        (log ++ [.offered (deviceId, version) now]) =
          if (deviceId, version) = k then since (AttemptEvent.isOffer k) (AttemptEvent.isReset k) log + 1
          else since (AttemptEvent.isOffer k) (AttemptEvent.isReset k) log := by
      intro k
      rw [since_append_singleton, AttemptEvent.isReset, AttemptEvent.isOffer]
      simp
    refine ⟨?_, ?_, ?_, ?_⟩
    · rw [offers_append]
      refine List.pairwise_append.mpr ⟨h.spaced, List.pairwise_singleton _ _, ?_⟩
      intro o ho o' ho' hkey
      obtain rfl := List.mem_singleton.mp ho'
      obtain ⟨r, hr, l, hl, hle⟩ := h.last o ho
      rw [hkey] at hr
      have := hspacing r l hr hl
      show o.2 + updateOfferMinIntervalMs < now
      omega
    · intro o ho
      rw [offers_append, List.mem_append] at ho
      by_cases hk : (deviceId, version) = o.1
      · refine ⟨r', hk ▸ hr', now, hlast', ?_⟩
        rcases ho with ho | ho
        · obtain ⟨r, hr, l, hl, hle⟩ := h.last o ho
          rw [← hk] at hr
          have := hspacing r l hr hl
          have : 0 ≤ updateOfferMinIntervalMs := by decide
          omega
        · obtain rfl := List.mem_singleton.mp ho
          exact Int.le_refl now
      · rw [find_exec_of_ne hk]
        rcases ho with ho | ho
        · exact h.last o ho
        · obtain rfl := List.mem_singleton.mp ho
          exact absurd rfl hk
    · intro k
      apply within_append_singleton (h.within k)
      rw [hsince]
      split
      · rename_i hk
        have := h.spent k
        rw [hk] at hbudget
        omega
      · exact h.within k log [] (List.append_nil log).symm
    · intro k
      rw [hsince]
      split
      · rename_i hk
        have := h.spent k
        rw [← hk] at this ⊢
        rw [hr', usedBudget, hphase', hcount']
        simpa [AgentUpdatePhase.isFresh] using this
      · rename_i hk
        rw [find_exec_of_ne hk]
        exact h.spent k
  · rw [if_neg hhits, List.append_nil]
    have hsame := find_exec_of_not_hits (t := t) (eq_false_of_ne_true hhits)
    exact ⟨h.spaced, fun o ho => by rw [hsame]; exact h.last o ho, h.within,
      fun k => by rw [hsame]; exact h.spent k⟩

end offer

theorem offerInv_exec {t : Keyed attemptKey} {log : List AttemptEvent} (w : AttemptWrite)
    (h : OfferInv t log) : OfferInv (w.exec t) (log ++ w.events t) := by
  cases w with
  | recordOffer => exact offerInv_recordOffer h
  | restoreBudget | applyStatus | install | succeed | revert | cancel | noProgress | timeOut =>
    exact offerInv_other rfl h

theorem offerInv_step {s s' : UpdateServer} {a : UpdateAction} (h : OfferInv s.attempts s.log)
    (hs : updateStep s a = some s') : OfferInv s'.attempts s'.log := by
  rcases updateStep_writes hs with ⟨hattempts, hlog⟩ | ⟨w, hattempts, hlog, -⟩
  · rw [hattempts, hlog]
    exact h
  · rw [hattempts, hlog]
    exact offerInv_exec w h

theorem offerInv_nil (t : Keyed attemptKey) : OfferInv t [] where
  spaced := List.Pairwise.nil
  last := by
    intro o ho
    contradiction
  within := fun _ => within_nil _
  spent := fun _ => Nat.zero_le _

/-- In every run, from any attempts, two counted offers of a pair are more than ten minutes apart,
and a stretch without a reset of its budget counts at most three. -/
theorem offers_budgeted (s0 : UpdateServer) (h0 : s0.log = []) (as : List UpdateAction)
    (s : UpdateServer) (h : run updateStep s0 as = some s) :
    ((offers s.log).Pairwise fun o o' => o.1 = o'.1 → o.2 + updateOfferMinIntervalMs < o'.2) ∧
    ∀ k pre mid post, s.log = pre ++ mid ++ post → (∀ e ∈ mid, e.isReset k = false) →
      mid.countP (AttemptEvent.isOffer k) ≤ updateRequestMaxOffers := by
  have hinv : OfferInv s.attempts s.log := by
    refine run_preserves (P := fun s => OfferInv s.attempts s.log) (fun _ _ _ => offerInv_step) ?_ h
    rw [h0]
    exact offerInv_nil _
  refine ⟨hinv.spaced, ?_⟩
  intro k pre mid post hlog hmid
  have hwithin := hinv.within k
  rw [hlog] at hwithin
  exact hwithin.stretch hmid

/-- An approved agent that updates by itself. -/
def oldAgent : UpdateDevice where
  tenantId := 1
  deviceType := .agent
  status := .approved
  agentVersion := some ['1', '.', '0', '.', '0']
  resolvedUpdatePolicy := .auto
  unresolved := false
  artifact := none
  updateRequestedAt := none
  updateRequestedVersion := none
  updatingSince := none

def newVersion : List Char := ['1', '.', '1', '.', '0']

/-- A server with `n` such agents and a newer version. -/
def updateFleet (n : Nat) : UpdateServer where
  clock := 0
  served := some newVersion
  manifest := none
  devices := ⟨(List.range n).map fun d => (d, oldAgent)⟩
  attempts := Keyed.empty
  procs := Registry.empty
  beats := Registry.empty
  reservations := []
  windowFullAt := none
  queue := []
  log := []

/-- A heartbeat of a device that gets an offer, up to its record. -/
def offerTo (t deviceId : Nat) : List UpdateAction :=
  .beat t deviceId [] :: List.replicate 8 (.beatNext t)

/-- Three offers, a request of an operator, and a fourth. -/
def requestedAgain : List UpdateAction :=
  offerTo 1 0 ++ .tick 600001 :: offerTo 2 0 ++ .tick 1200002 :: offerTo 3 0 ++
    .request 1 [0] 1 :: List.replicate 3 (.next 1) ++ .tick 1800003 :: offerTo 4 0

theorem offers_budgeted_requestedAgain :
    (run updateStep (updateFleet 1) requestedAgain).map (·.log) = some
      [.offered (0, newVersion) 0, .offered (0, newVersion) 600001, .offered (0, newVersion) 1200002,
        .reset (0, newVersion), .offered (0, newVersion) 1800003] ∧
    [AttemptEvent.offered (0, newVersion) 0, .offered (0, newVersion) 600001,
      .offered (0, newVersion) 1200002].countP (AttemptEvent.isOffer (0, newVersion)) ≤
        updateRequestMaxOffers := by
  have hlog : (run updateStep (updateFleet 1) requestedAgain).map (·.log) = some
      [.offered (0, newVersion) 0, .offered (0, newVersion) 600001, .offered (0, newVersion) 1200002,
        .reset (0, newVersion), .offered (0, newVersion) 1800003] := by decide +kernel
  refine ⟨hlog, ?_⟩
  obtain ⟨s, hs, hlog⟩ := Option.map_eq_some_iff.mp hlog
  exact (offers_budgeted (updateFleet 1) rfl requestedAgain s hs).2 (0, newVersion) []
    [.offered (0, newVersion) 0, .offered (0, newVersion) 600001, .offered (0, newVersion) 1200002]
    [.reset (0, newVersion), .offered (0, newVersion) 1800003] hlog (by decide)

end Obliguard.Server

import Obliguard.Server.CommandQueue

/-!
# Finished commands

`claim` selects the ids of the queued rows and then updates them by id alone, under the lock of the
device row that `sweep` and `fail` do not take. A row that one of them closes in between is sent all
the same (`expired_sent`); `stillQueued` is the condition under which finished rows stay finished
(`finished_final`).
-/

namespace Obliguard.Server

open ReadCommitted Runs

/-! ## Finished rows -/

/-- The condition: the rows that a claim selected are still queued when it updates them. -/
def stillQueued (s : CommandDb) : CommandAction → Bool
  | .next t => match s.txs t with
    | some (.claimUpdate _ ids) =>
      ids.all fun i => ((s.commands.cells i).view (some t)).all (·.status == .queued)
    | _ => true
  | _ => true

/-- A row that a transaction has written was queued before. -/
def QueuedUnder (s : CommandDb) : Prop :=
  ∀ i t r r', (s.commands.cells i).working = some (t, r) →
    (s.commands.cells i).committed = some r' → r'.status = .queued

theorem queued_of_update {s : CommandDb} {t i : Nat} {tx tx' : CommandTx} {u : CommandUpdate}
    {ids : List Nat} {r : AgentCommandRow} (hok : stillQueued s (.next t) = true)
    (htx : s.txs t = some tx)
    (hrows : tx'.rows = [] ∧ tx'.sent = false ∧ (∃ d now, u = .expireOf d now) ∨
      tx'.rows = ids ∧ ((∃ c is, tx = .claimUpdate c is ∧ u = .send is c.now) ∨
        ∃ now, u = .sendLegacy tx.deviceId now))
    (hr : (s.commands.cells i).view (some t) = some r) (hcond : u.cond i r = true) :
    r.status = .queued := by
  rcases hrows with ⟨-, -, d, now, rfl⟩ | ⟨-, ⟨c, is, rfl, rfl⟩ | ⟨now, rfl⟩⟩
  · simp only [CommandUpdate.cond, Bool.and_eq_true, beq_iff_eq] at hcond
    exact hcond.1.2
  · simp only [stillQueued, htx, List.all_eq_true] at hok
    have hall := hok i (List.contains_iff_mem.mp hcond)
    rw [hr] at hall
    simpa using hall
  · simp only [CommandUpdate.cond, Bool.and_eq_true, beq_iff_eq] at hcond
    exact hcond.1.2

theorem queuedUnder_step {s s' : CommandDb} {a : CommandAction} (h : QueuedUnder s)
    (hok : stillQueued s a = true) (hs : commandStep s a = some s') : QueuedUnder s' := by
  cases commandStep_effect hs with
  | keep | start | advance => exact h
  | @update t tx tx' u ids commands ha htx hdevice hexec hrows =>
    intro i v w w' hw hw'
    rcases exec_cell hexec i with ⟨-, heq⟩ | ⟨-, hfree, r, hr, hcond, heq⟩
    · exact h i v w w' (heq ▸ hw) (heq ▸ hw')
    · have hcommitted : (s.commands.cells i).committed = some w' := by
        rw [← hw']
        show _ = (commands.cells i).committed
        rw [heq, Cell.committed_write_some]
      have hqueued := queued_of_update (ha ▸ hok) htx hrows hr hcond
      by_cases howned : (s.commands.cells i).owned (some t) = true
      · obtain ⟨x, hx⟩ := Cell.owned_iff.mp howned
        exact h i t x w' hx hcommitted
      · rw [Cell.view_of_not_owned (eq_false_of_ne_true howned), hcommitted] at hr
        rw [Option.some.inj hr]
        exact hqueued
  | @insert t tx tx' row commands htx hdevice hins hrows hsent =>
    obtain rfl := insert_eq hins
    intro i v w w' hw hw'
    by_cases hi : i = s.commands.seq
    · have hnew : (s.commands.append (some t) row).cells i = Cell.empty.write (some t) row :=
        if_pos hi
      have hw' : ((s.commands.append (some t) row).cells i).committed = some w' := hw'
      rw [hnew] at hw'
      contradiction
    · have hold : (s.commands.append (some t) row).cells i = s.commands.cells i := if_neg hi
      exact h i v w w' (hold ▸ hw) (hold ▸ hw')
  | @commit t tx htx hsent =>
    intro i v w w' hw hw'
    have hw : ((s.commands.cells i).commit t).working = some (v, w) := hw
    have hw' : ((s.commands.cells i).commit t).committed = some w' := hw'
    rw [Cell.working_commit] at hw
    split at hw
    · contradiction
    · rename_i howned
      rw [Cell.committed_commit, if_neg howned] at hw'
      exact h i v w w' hw hw'
  | @rollback t =>
    intro i v w w' hw hw'
    have hw : ((s.commands.cells i).rollback t).working = some (v, w) := hw
    have hw' : ((s.commands.cells i).rollback t).committed = some w' := hw'
    rw [Cell.working_rollback] at hw
    rw [Cell.committed_rollback] at hw'
    split at hw
    · contradiction
    · exact h i v w w' hw hw'
  | @alone u ids commands deviceWrites hu hexec =>
    intro i v w w' hw hw'
    rcases exec_cell hexec i with ⟨-, heq⟩ | ⟨-, hfree, r, -, -, heq⟩
    · exact h i v w w' (heq ▸ hw) (heq ▸ hw')
    · have hw : (commands.cells i).working = some (v, w) := hw
      rw [heq, Cell.working_write_none] at hw
      have := Cell.owned_of_not_lockedByOther hfree hw
      contradiction

theorem finished_step {s s' : CommandDb} {a : CommandAction} {i : Nat} {r : AgentCommandRow}
    (h : QueuedUnder s) (hs : commandStep s a = some s')
    (hr : (s.commands.cells i).committed = some r) (hfinal : r.status.isOpen = false) :
    (s'.commands.cells i).committed = some r := by
  cases commandStep_effect hs with
  | keep | start | advance => exact hr
  | @update t tx tx' u ids commands ha htx hdevice hexec hrows =>
    show (commands.cells i).committed = some r
    rcases exec_cell hexec i with ⟨-, heq⟩ | ⟨-, -, r', -, -, heq⟩
    · rw [heq, hr]
    · rw [heq, Cell.committed_write_some, hr]
  | @insert t tx tx' row commands htx hdevice hins hrows hsent =>
    obtain rfl := insert_eq hins
    have hi : i ≠ s.commands.seq := by
      intro hi
      rw [hi, s.commands.fresh _ (Nat.le_refl _)] at hr
      contradiction
    have hold : (s.commands.append (some t) row).cells i = s.commands.cells i := if_neg hi
    show ((s.commands.append (some t) row).cells i).committed = some r
    rw [hold, hr]
  | @commit t tx htx hsent =>
    show ((s.commands.cells i).commit t).committed = some r
    rw [Cell.committed_commit]
    split
    · rename_i howned
      obtain ⟨w, hw⟩ := Cell.owned_iff.mp howned
      have hqueued := h i t w r hw hr
      rw [hqueued] at hfinal
      contradiction
    · exact hr
  | @rollback t =>
    show ((s.commands.cells i).rollback t).committed = some r
    rw [Cell.committed_rollback, hr]
  | @alone u ids commands deviceWrites hu hexec =>
    show (commands.cells i).committed = some r
    rcases exec_cell hexec i with ⟨-, heq⟩ | ⟨-, -, r', hr', hcond, -⟩
    · rw [heq, hr]
    · rw [Cell.view_none, hr] at hr'
      have hopen : r'.status.isOpen = true := by
        refine CommandUpdate.isOpen_of_cond ?_ hcond
        rintro is now rfl
        contradiction
      rw [← Option.some.inj hr', hfinal] at hopen
      contradiction

theorem returned_step {s s' : CommandDb} {a : CommandAction} {i : Nat}
    {b : Option AgentCommandStatus} (h : QueuedUnder s) (hinv : DeliveryInv s)
    (hs : commandStep s a = some s') (hb : .returned i b ∈ s'.events) :
    .returned i b ∈ s.events ∨ b ≠ some .expired := by
  cases commandStep_effect hs with
  | keep | start | advance | update | insert | rollback => exact .inl hb
  | @commit t tx htx hsent =>
    rcases List.mem_append.mp hb with hb | hb
    · exact .inl hb
    · right
      obtain ⟨j, hj, heq⟩ := List.mem_map.mp hb
      obtain ⟨rfl, rfl⟩ := DeliveryEvent.returned.inj heq
      rcases hsent with hnil | hsent
      · rw [hnil] at hj
        contradiction
      · obtain ⟨r, hr, -⟩ := (hinv.sent t tx htx hsent).2 j hj
        intro hexp
        obtain ⟨r', hr', hstatus⟩ := Option.map_eq_some_iff.mp hexp
        rw [h j t r r' hr hr'] at hstatus
        contradiction
  | @alone u ids commands deviceWrites hu hexec =>
    rcases List.mem_append.mp hb with hb | hb
    · exact .inl hb
    · unfold CommandUpdate.events at hb
      split at hb
      · obtain ⟨j, -, heq⟩ := List.mem_map.mp hb
        contradiction
      · contradiction

structure FinalInv (s : CommandDb) : Prop where
  queued : QueuedUnder s
  delivery : DeliveryInv s
  returned : ∀ i b, .returned i b ∈ s.events → b ≠ some .expired

theorem finalInv_idle {s : CommandDb} (h : s.Idle) : FinalInv s where
  queued := by
    intro i t r r' hr
    rw [h.working] at hr
    contradiction
  delivery := deliveryInv_idle h
  returned := by
    rw [h.events]
    intro i b hb
    contradiction

theorem finalInv_step {s s' : CommandDb} {a : CommandAction} (h : FinalInv s)
    (hok : stillQueued s a = true) (hs : commandStep s a = some s') : FinalInv s' := by
  refine ⟨queuedUnder_step h.queued hok hs, deliveryInv_step h.delivery hs, ?_⟩
  intro i b hb
  rcases returned_step h.queued h.delivery hs hb with hb | hb
  · exact h.returned i b hb
  · exact hb

/-- In every run in which the rows of a claim are still queued when it updates them, a finished row
stays as it is, and no claim returns an expired row. -/
theorem finished_final (s0 : CommandDb) (h0 : s0.Idle) (as bs : List CommandAction)
    (s s' : CommandDb) (hok : StepsMeet commandStep (fun s a => stillQueued s a) s0 (as ++ bs))
    (h : run commandStep s0 as = some s) (h' : run commandStep s bs = some s') :
    (∀ i r, (s.commands.cells i).committed = some r → r.status.isOpen = false →
      ∃ r', (s'.commands.cells i).committed = some r' ∧ r'.status = r.status) ∧
    ∀ i b, .returned i b ∈ s'.events → b ≠ some .expired := by
  obtain ⟨hok, hok'⟩ := stepsMeet_append.mp hok
  have hinv : FinalInv s := run_invariant (fun _ _ _ => finalInv_step) (finalInv_idle h0) hok h
  have hkept : FinalInv s' ∧ ∀ i r, (s.commands.cells i).committed = some r →
      r.status.isOpen = false → (s'.commands.cells i).committed = some r := by
    refine run_invariant (P := fun t => FinalInv t ∧ ∀ i r,
      (s.commands.cells i).committed = some r → r.status.isOpen = false →
        (t.commands.cells i).committed = some r) ?_ ⟨hinv, fun _ _ hr _ => hr⟩ (hok' s h) h'
    intro t a t' ht hmeet hs
    refine ⟨finalInv_step ht.1 hmeet hs, ?_⟩
    intro i r hr hfinal
    exact finished_step ht.1.queued hs (ht.2 i r hr hfinal) hfinal
  refine ⟨?_, hkept.1.returned⟩
  intro i r hr hfinal
  exact ⟨r, hkept.2 i r hr hfinal, rfl⟩

/-- A day after a restart was queued the sweep expires it, before any claim. -/
def expireRun : List CommandAction := enqueueRestart ++ [.sweepExpired (24 * 3600000)]

theorem finished_final_expired : ∃ s s' r', run commandStep oneDevice expireRun = some s ∧
    run commandStep s (claimAll 2 (24 * 3600000)) = some s' ∧
    (s'.commands.cells 1).committed = some r' ∧ r'.status = .expired := by
  obtain ⟨s, hs⟩ : ∃ s, run commandStep oneDevice expireRun = some s :=
    Option.isSome_iff_exists.mp (by decide)
  obtain ⟨s', hs'⟩ : ∃ s', run commandStep s (claimAll 2 (24 * 3600000)) = some s' := by
    have hsome : (run commandStep oneDevice (expireRun ++ claimAll 2 (24 * 3600000))).isSome := by
      decide
    obtain ⟨s', hs'⟩ := Option.isSome_iff_exists.mp hsome
    obtain ⟨t, ht, hs'⟩ := run_append.mp hs'
    exact ⟨s', Option.some.inj (hs.symm.trans ht) ▸ hs'⟩
  have hrow : (run commandStep oneDevice expireRun).bind (fun s =>
      (s.commands.cells 1).committed.map (·.status)) = some .expired := by decide
  rw [hs] at hrow
  obtain ⟨r, hr, hstatus⟩ := Option.map_eq_some_iff.mp hrow
  obtain ⟨r', hr', hsame⟩ := (finished_final oneDevice oneDevice_idle expireRun
    (claimAll 2 (24 * 3600000)) s s' (by decide) hs hs').1 1 r hr (by rw [hstatus]; rfl)
  exact ⟨s, s', r', hs, hs', hr', hsame.trans hstatus⟩

/-- A claim selects the restart just before it expires, and the sweep comes before its update. -/
def lateClaim : List CommandAction :=
  enqueueRestart ++ [.beginClaim 2 1 true (24 * 3600000 - 1), .next 2, .next 2, .next 2,
    .sweepExpired (24 * 3600000)]

/-- The expired row becomes sent, and the claim returns it. -/
theorem expired_sent :
    (¬ ∀ s0 : CommandDb, s0.Idle → ∀ as bs s s', run commandStep s0 as = some s →
      run commandStep s bs = some s' → ∀ i r, (s.commands.cells i).committed = some r →
        r.status.isOpen = false →
          ∃ r', (s'.commands.cells i).committed = some r' ∧ r'.status = r.status) ∧
    ¬ ∀ s0 : CommandDb, s0.Idle → ∀ as s, run commandStep s0 as = some s →
      ∀ i b, .returned i b ∈ s.events → b ≠ some .expired := by
  constructor
  · intro h
    have hbefore : (run commandStep oneDevice lateClaim).bind (fun s =>
        (s.commands.cells 1).committed.map (·.status)) = some .expired := by decide
    have hafter : (run commandStep oneDevice (lateClaim ++ List.replicate 3 (.next 2))).bind
        (fun s => (s.commands.cells 1).committed.map (·.status)) = some .sent := by decide
    obtain ⟨s, hs, hbefore⟩ := Option.bind_eq_some_iff.mp hbefore
    obtain ⟨s', hs', hafter⟩ := Option.bind_eq_some_iff.mp hafter
    obtain ⟨t, ht, hs'⟩ := run_append.mp hs'
    obtain rfl := Option.some.inj (hs.symm.trans ht)
    obtain ⟨r, hr, hstatus⟩ := Option.map_eq_some_iff.mp hbefore
    obtain ⟨r', hr', hsame⟩ := h oneDevice oneDevice_idle lateClaim _ s s' hs hs' 1 r hr
      (by rw [hstatus]; rfl)
    rw [hr', Option.map_some, hsame, hstatus] at hafter
    contradiction
  · intro h
    have hevents : (run commandStep oneDevice (lateClaim ++ List.replicate 3 (.next 2))).map
        (·.events) = some [.returned 1 (some .expired)] := by decide
    obtain ⟨s, hs, hevents⟩ := Option.map_eq_some_iff.mp hevents
    refine h oneDevice oneDevice_idle _ s hs 1 (some .expired) ?_ rfl
    rw [hevents]
    exact List.mem_singleton_self _

end Obliguard.Server

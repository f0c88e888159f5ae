import Obliguard.Agent.FirewallWorker

/-!
# A firewall resync and the deltas around it

Once `resyncFirewall` has completed with its list, no delta of an earlier frame is applied any more,
provided that none was out of its reach when it emptied the mailbox: in the hands of the firewall
worker, or in a frame that the config worker had not queued yet. `resync_final` says so of every run;
`resync_not_final` is the run in which the worker holds a delta across the resync.
-/

namespace Obliguard.Agent

open Runs

/-! ## What is pending -/

/-- The frames of every delta, or operation of one, that is still to be applied. -/
def FirewallState.pending (s : FirewallState) : List Nat :=
  s.config.map (·.frame) ++ s.handling.toList.map (·.frame) ++ s.mailbox.rows.map (·.frame) ++
    s.worker.batch.map (·.frame)

section pending
variable {s s' : FirewallState} {n k : Nat}

theorem mem_pending : n ∈ s.pending ↔ (∃ f ∈ s.config, f.frame = n) ∨
    (∃ f ∈ s.handling, f.frame = n) ∨ (∃ op ∈ s.mailbox.rows, op.frame = n) ∨
      ∃ op ∈ s.worker.batch, op.frame = n := by
  simp [FirewallState.pending]

theorem Fires.pending {a : FirewallAction} (h : Fires s a s') (hn : n ∈ s'.pending) :
    n ∈ s.pending ∨ n = s.frames ∧ s'.frames = s.frames + 1 := by
  rw [mem_pending] at hn ⊢
  cases h with
  | frame add remove =>
    rcases hn with ⟨f, hf, rfl⟩ | hn
    · rcases List.mem_append.mp hf with hf | hf
      · exact .inl (.inl ⟨f, hf, rfl⟩)
      · rw [List.mem_singleton.mp hf]
        exact .inr ⟨rfl, rfl⟩
    · exact .inl (.inr hn)
  | handle hconfig hhandling =>
    rcases hn with ⟨g, hg, rfl⟩ | ⟨g, hg, rfl⟩ | hn
    · exact .inl (.inl ⟨g, by simp [hconfig, hg], rfl⟩)
    · cases hg
      exact .inl (.inl ⟨_, by simp [hconfig], rfl⟩)
    · exact .inl (.inr (.inr hn))
  | dropped safe hhandling hadd hremove =>
    rcases hn with hn | ⟨g, hg, -⟩ | hn
    · exact .inl (.inl hn)
    · contradiction
    · exact .inl (.inr (.inr hn))
  | queued safe hhandling =>
    rcases hn with hn | ⟨g, hg, -⟩ | ⟨op, hop, rfl⟩ | hn
    · exact .inl (.inl hn)
    · contradiction
    · rcases mem_queueBanDelta hop with hop | hop
      · exact .inl (.inr (.inr (.inl ⟨op, hop, rfl⟩)))
      · exact .inl (.inr (.inl ⟨_, hhandling, hop.symm⟩))
    · exact .inl (.inr (.inr (.inr hn)))
  | nothing hworker hempty =>
    rcases hn with hn | hn | ⟨op, hop, -⟩ | ⟨op, hop, -⟩
    · exact .inl (.inl hn)
    · exact .inl (.inr (.inl hn))
    · contradiction
    · contradiction
  | took hworker hbatch =>
    rcases hn with hn | hn | ⟨op, hop, -⟩ | ⟨op, hop, rfl⟩
    · exact .inl (.inl hn)
    · exact .inl (.inr (.inl hn))
    · contradiction
    · exact .inl (.inr (.inr (.inl ⟨op, mem_takeBanDelta.mp hop, rfl⟩)))
  | lock hworker hfree =>
    rw [hworker]
    exact .inl hn
  | apply failed hworker =>
    rw [hworker]
    exact .inl hn
  | flush failed hworker =>
    rcases hn with hn | hn | hn | ⟨op, hop, -⟩
    · exact .inl (.inl hn)
    · exact .inl (.inr (.inl hn))
    · exact .inl (.inr (.inr (.inl hn)))
    · contradiction
  | takeResync hlocked =>
    rcases hn with hn | hn | ⟨op, hop, -⟩ | hn
    · exact .inl (.inl hn)
    · exact .inl (.inr (.inl hn))
    · contradiction
    · exact .inl (.inr (.inr (.inr hn)))
  | command bans => exact .inl hn
  | startResync i hidle hcommand => exact .inl hn
  | lockResync hfiltered hfree => exact .inl hn
  | applyResync htaken hreports => exact .inl hn
  | failedApply rest htaken => exact .inl hn
  | failResync htaken => exact .inl hn

end pending

/-! ## The invariant -/

/-- The resync that a phase is of. -/
def ResyncPhase.resync : ResyncPhase → Option Resync
  | .idle => none
  | .filtered r => some r
  | .locked r => some r
  | .taken r => some r

/-- The frames of the pending deltas that are not in the mailbox. -/
def FirewallState.outOfReach (s : FirewallState) : List Nat :=
  s.config.map (·.frame) ++ s.handling.toList.map (·.frame) ++ s.worker.batch.map (·.frame)

/-- The resync that empties the mailbox in a step. -/
def superseding (s : FirewallState) : FirewallAction → Option Resync
  | .takeResync => s.resync.resync
  | _ => none

/-- A resync that empties the mailbox finds there every delta of an earlier frame. -/
def InReach (s : FirewallState) (a : FirewallAction) : Prop :=
  ∀ r ∈ superseding s a, ∀ n ∈ s.outOfReach, r.since ≤ n

instance (s : FirewallState) (a : FirewallAction) : Decidable (InReach s a) :=
  inferInstanceAs (Decidable (∀ r ∈ superseding s a, _))

/-- What a completed resync promises: nothing earlier was applied since, and with no later frame the
set is the list. -/
def Final (s : FirewallState) (r : Resync) : Prop :=
  (∀ op ∈ s.log, r.since ≤ op.frame) ∧ (s.frames = r.since → s.enforced = r.want.toFinset)

structure ResyncInv (s : FirewallState) : Prop where
  received : ∀ n ∈ s.pending, n < s.frames
  busy : s.worker = .waiting ∨ s.worker.batch ≠ []
  todo : ∀ batch todo, s.worker = .applying batch todo → ∀ op ∈ todo, op ∈ batch
  commands : ∀ c ∈ s.commands, c.1 ≤ s.frames
  resync : ∀ r ∈ s.resync.resync, r.since ≤ s.frames
  taken : ∀ r, s.resync = .taken r → ∀ n ∈ s.pending, r.since ≤ n
  settled : ∀ r ∈ s.settled, r.since ≤ s.frames ∧ (∀ n ∈ s.pending, r.since ≤ n) ∧ Final s r

section invariant
variable {s s' : FirewallState} {a : FirewallAction} {r : Resync}

theorem Fires.frames_le (h : Fires s a s') : s.frames ≤ s'.frames := by
  cases h with
  | frame => exact Nat.le_succ _
  | _ => exact le_rfl

theorem pending_of_mem_batch {op : BanOp} (h : op ∈ s.worker.batch) : op.frame ∈ s.pending :=
  mem_pending.mpr (.inr (.inr (.inr ⟨op, h, rfl⟩)))

theorem ResyncInv.waiting (hs : ResyncInv s) (hpending : ∀ n ∈ s.pending, r.since ≤ n)
    (hframes : s.frames = r.since) : s.worker = .waiting := by
  rcases hs.busy with h | h
  · exact h
  · obtain ⟨op, hop⟩ := List.exists_mem_of_ne_nil _ h
    have hn := pending_of_mem_batch hop
    have hlt := hs.received _ hn
    have hle := hpending _ hn
    omega

theorem step_received (hs : ResyncInv s) (h : Fires s a s') : ∀ n ∈ s'.pending, n < s'.frames := by
  intro n hn
  rcases h.pending hn with hn | ⟨rfl, hframes⟩
  · exact (hs.received n hn).trans_le h.frames_le
  · omega

theorem step_pending_ge {since : Nat} (hsince : since ≤ s.frames) (hp : ∀ n ∈ s.pending, since ≤ n)
    (h : Fires s a s') : ∀ n ∈ s'.pending, since ≤ n := by
  intro n hn
  rcases h.pending hn with hn | ⟨rfl, -⟩
  · exact hp n hn
  · exact hsince

theorem step_busy (hs : ResyncInv s) (h : Fires s a s') :
    s'.worker = .waiting ∨ s'.worker.batch ≠ [] := by
  have hbusy := hs.busy
  cases h with
  | nothing hworker hempty => exact .inl rfl
  | took hworker hbatch => exact .inr hbatch
  | flush failed hworker => exact .inl rfl
  | lock hworker hfree =>
    rw [hworker] at hbusy
    exact .inr (hbusy.resolve_left (by simp))
  | apply failed hworker =>
    rw [hworker] at hbusy
    exact .inr (hbusy.resolve_left (by simp))
  | _ => exact hbusy

theorem step_todo (hs : ResyncInv s) (h : Fires s a s') :
    ∀ batch todo, s'.worker = .applying batch todo → ∀ op ∈ todo, op ∈ batch := by
  have htodo := hs.todo
  cases h with
  | nothing hworker hempty => simp
  | took hworker hbatch => simp
  | flush failed hworker => simp
  | lock hworker hfree =>
    rintro batch todo heq op hop
    obtain ⟨rfl, rfl⟩ := Worker.applying.inj heq
    exact hop
  | apply failed hworker =>
    rintro batch todo heq op hop
    obtain ⟨rfl, rfl⟩ := Worker.applying.inj heq
    exact htodo _ _ hworker op (List.mem_cons_of_mem _ hop)
  | _ => exact htodo

theorem step_commands (hs : ResyncInv s) (h : Fires s a s') : ∀ c ∈ s'.commands, c.1 ≤ s'.frames := by
  have hcommands := hs.commands
  cases h with
  | frame add remove => exact fun c hc => (hcommands c hc).trans (Nat.le_succ _)
  | command bans =>
    intro c hc
    rcases List.mem_append.mp hc with hc | hc
    · exact hcommands c hc
    · rw [List.mem_singleton.mp hc]
  | startResync i hidle hcommand =>
    exact fun c hc => hcommands c (List.mem_of_mem_eraseIdx hc)
  | _ => exact hcommands

theorem step_resync (hs : ResyncInv s) (h : Fires s a s') :
    ∀ r ∈ s'.resync.resync, r.since ≤ s'.frames := by
  have hresync := hs.resync
  cases h with
  | frame add remove => exact fun r hr => (hresync r hr).trans (Nat.le_succ _)
  | startResync i hidle hcommand =>
    rintro r hr
    cases hr
    exact hs.commands _ hcommand
  | lockResync hfiltered hfree =>
    rw [hfiltered] at hresync
    exact hresync
  | takeResync hlocked =>
    rw [hlocked] at hresync
    exact hresync
  | applyResync htaken hreports => simp [ResyncPhase.resync]
  | failedApply rest htaken => simp [ResyncPhase.resync]
  | failResync htaken => simp [ResyncPhase.resync]
  | _ => exact hresync

/-- What a resync has behind it once it emptied the mailbox. -/
theorem step_taken (hs : ResyncInv s) (hreach : InReach s a) (h : Fires s a s') :
    ∀ r, s'.resync = .taken r → ∀ n ∈ s'.pending, r.since ≤ n := by
  intro r hr
  by_cases hkept : s.resync = .taken r
  · have hsince : r.since ≤ s.frames := hs.resync r (by rw [hkept]; rfl)
    exact step_pending_ge hsince (hs.taken r hkept) h
  · cases h with
    | takeResync hlocked =>
      cases hr
      have hout : ∀ n ∈ s.outOfReach, r.since ≤ n := hreach r (by rw [superseding, hlocked]; rfl)
      intro n hn
      apply hout
      simpa [FirewallState.pending, FirewallState.outOfReach, Keyed.empty] using hn
    | lockResync hfiltered hfree => simp at hr
    | startResync i hidle hcommand => simp at hr
    | applyResync htaken hreports => simp at hr
    | failedApply rest htaken => simp at hr
    | failResync htaken => simp at hr
    | _ => exact absurd hr hkept

theorem step_final (hs : ResyncInv s) (h : Fires s a s') (hr : s.settled = some r)
    (hr' : s'.settled = some r) (hlog : ∀ current, a ≠ .applyResync current none) : Final s' r := by
  obtain ⟨hsince, hpending, hfinal⟩ := hs.settled r hr
  cases h with
  | frame add remove => exact ⟨hfinal.1, fun hframes => absurd hframes (by simp only; omega)⟩
  | @apply batch todo op failed hworker =>
    have hop : op ∈ s.worker.batch := by
      rw [hworker]
      exact hs.todo _ _ hworker op (by simp)
    refine ⟨fun op' hop' => ?_, fun hframes => ?_⟩
    · rcases List.mem_append.mp hop' with hop' | hop'
      · exact hfinal.1 op' hop'
      · rw [List.mem_singleton.mp hop']
        exact hpending _ (pending_of_mem_batch hop)
    · have := hs.waiting hpending hframes
      rw [hworker] at this
      contradiction
  | flush failed hworker =>
    refine ⟨hfinal.1, fun hframes => ?_⟩
    have := hs.waiting hpending hframes
    rw [hworker] at this
    contradiction
  | applyResync htaken hreports => exact absurd rfl (hlog _)
  | failedApply rest htaken => simp at hr'
  | _ => exact hfinal

theorem step_settled (hs : ResyncInv s) (h : Fires s a s') :
    ∀ r ∈ s'.settled, r.since ≤ s'.frames ∧ (∀ n ∈ s'.pending, r.since ≤ n) ∧ Final s' r := by
  intro r hr
  have hkept (hsettled : s.settled = some r) (hlog : ∀ current, a ≠ .applyResync current none) :
      r.since ≤ s'.frames ∧ (∀ n ∈ s'.pending, r.since ≤ n) ∧ Final s' r := by
    obtain ⟨hsince, hpending, -⟩ := hs.settled r hsettled
    exact ⟨hsince.trans h.frames_le, step_pending_ge hsince hpending h,
      step_final hs h hsettled hr hlog⟩
  have h' := h
  cases h' with
  | applyResync htaken hreports =>
    cases hr
    have hsince : r.since ≤ s.frames := hs.resync r (by rw [htaken]; rfl)
    refine ⟨hsince, step_pending_ge hsince (hs.taken r htaken) h, by simp, fun _ => ?_⟩
    exact applyBanDeltaLocked_resyncDelta hreports
  | failedApply rest htaken => simp at hr
  | _ => exact hkept hr (by simp)

theorem resyncInv_step (hs : ResyncInv s) (hreach : InReach s a)
    (h : firewallStep s a = some s') : ResyncInv s' :=
  have h := fires_of_step h
  { received := step_received hs h
    busy := step_busy hs h
    todo := step_todo hs h
    commands := step_commands hs h
    resync := step_resync hs h
    taken := step_taken hs hreach h
    settled := step_settled hs h }

theorem resyncInv_init (enforced : Finset String) : ResyncInv (.init enforced) where
  received := by simp [FirewallState.pending, FirewallState.init, Worker.batch, Keyed.empty]
  busy := .inl rfl
  todo := by simp [FirewallState.init]
  commands := by simp [FirewallState.init]
  resync := by simp [FirewallState.init, ResyncPhase.resync]
  taken := by simp [FirewallState.init]
  settled := by simp [FirewallState.init]

end invariant

/-! ## Finality -/

/-- In a run whose resyncs find every earlier delta in the mailbox, a completed resync is final:
nothing of an earlier frame has been applied since, and while no later frame was received the
enforced set is its safety-filtered list. -/
theorem resync_final (enforced : Finset String) (as : List FirewallAction) (s : FirewallState)
    (hrun : run firewallStep (.init enforced) as = some s)
    (hreach : StepsMeet firewallStep InReach (.init enforced) as) (r : Resync)
    (hr : s.settled = some r) : Final s r := by
  have hs : ResyncInv s :=
    run_invariant (fun _ _ _ hs hok h => resyncInv_step hs hok h) (resyncInv_init enforced) hreach hrun
  exact (hs.settled r hr).2.2

/-- A guard that refuses nothing. -/
def anyNet (_ : Net) : Bool := true

/-- A ban is queued, then a resync to another list completes before the worker wakes up. -/
def supersededRun : List FirewallAction :=
  [.frame ["192.0.2.1"] [], .handle, .queue anyNet, .command ["192.0.2.9"], .startResync 0 anyNet,
    .lockResync, .takeResync, .applyResync ["192.0.2.77"] none, .wake]

theorem resync_final_superseded : ∃ s, run firewallStep (.init {"192.0.2.77"}) supersededRun = some s ∧
    s.enforced = {"192.0.2.9"} ∧ ∀ r, s.settled = some r → Final s r := by
  obtain ⟨s, hs, hset⟩ := Option.map_eq_some_iff.mp (show
    (run firewallStep (.init {"192.0.2.77"}) supersededRun).map (·.enforced) = some {"192.0.2.9"} by
      decide)
  exact ⟨s, hs, hset, fun r => resync_final _ _ s hs (by decide) r⟩

/-- The worker took the ban, and waits for the lock while the resync runs. -/
def heldRun : List FirewallAction :=
  [.frame ["192.0.2.1"] [], .handle, .queue anyNet, .wake, .command [], .startResync 0 anyNet,
    .lockResync, .takeResync, .applyResync [] none, .lock, .apply none, .flush none]

/-- The ban of frame 0 is then applied after the resync to the empty list, with no frame received in
between. -/
theorem resync_not_final : ∃ s, run firewallStep (.init ∅) heldRun = some s ∧
    s.log = [⟨"192.0.2.1", true, 0⟩] ∧ s.enforced = {"192.0.2.1"} ∧
      ∃ r, s.settled = some r ∧ r.since = 1 ∧ s.frames = 1 ∧ r.want = [] ∧ ¬ Final s r := by
  obtain ⟨s, hs⟩ : ∃ s, run firewallStep (.init ∅) heldRun = some s :=
    Option.isSome_iff_exists.mp (by decide)
  have hlog : (run firewallStep (.init ∅) heldRun).map (·.log) =
      some [⟨"192.0.2.1", true, 0⟩] := by decide
  have hset : (run firewallStep (.init ∅) heldRun).map (fun s => (s.frames, s.enforced)) =
      some (1, {"192.0.2.1"}) := by decide
  have hsettled : (run firewallStep (.init ∅) heldRun).map (fun s =>
      s.settled.map fun r => (r.since, r.want)) = some (some (1, [])) := by decide
  rw [hs, Option.map_some, Option.some.injEq] at hlog hset hsettled
  obtain ⟨hframes, henforced⟩ := Prod.mk.inj hset
  obtain ⟨r, hr, hwant⟩ := Option.map_eq_some_iff.mp hsettled
  obtain ⟨hsince, hwant⟩ := Prod.mk.inj hwant
  refine ⟨s, hs, hlog, henforced, r, hr, hsince, hframes, hwant, fun hfinal => ?_⟩
  have hop := hfinal.1 ⟨"192.0.2.1", true, 0⟩ (by simp [hlog])
  rw [hsince] at hop
  exact absurd hop (by decide)

end Obliguard.Agent

import Mathlib.Data.Finset.Lattice.Fold
import Mathlib.Data.List.Sort
import Mathlib.Data.String.Basic
import Obliguard.Agent.BanEntry
import Obliguard.Lib.Keyed
import Obliguard.Lib.Runs

/-!
# The firewall worker of the agent

`agent/cmd_ws.go`: the config worker queues the ban delta of every config frame in a mailbox, where
the last operation of an entry wins; the firewall worker takes the mailbox and applies it; and
`resyncFirewall` replaces the enforced set. `fwApplyMu` serializes the last two, the mailbox has a
mutex of its own, so taking a delta and applying it are separate steps.

The backend is a set of entries. An operation that fails leaves any set at all. A frame is numbered
when it is received, and an operation carries the number of the frame that asked for it; what the
firewall worker applied since the last resync is kept in `log`. None of this is read by the agent.
-/

namespace Obliguard.Agent

/-! ## The mailbox -/

/-- The `banList` of a config frame. -/
structure BanFrame where
  frame : Nat
  add : List String
  remove : List String
deriving DecidableEq

/-- An operation on an entry, `ban` or unban, of the frame that asked last for it. -/
structure BanOp where
  entry : String
  ban : Bool
  frame : Nat
deriving DecidableEq

/-- `banDelta.ops`. -/
abbrev Mailbox := Keyed BanOp.entry

/-- `banDelta.ops[k] = ban`. -/
def Mailbox.record (ops : Mailbox) (op : BanOp) : Mailbox :=
  ops.upsert op (fun _ => true) (fun r => { r with ban := op.ban, frame := op.frame }) fun _ => rfl

/-- `Filter` of `bansafety.go`: the canonical entries that are safe to enforce. -/
def banFilter (safe : Net → Bool) (adds : List String) : List String :=
  distinct (adds.filterMap fun raw => (canonicalBanEntry raw).bind fun (k, p) =>
    if safe p then some k else none)

/-- `queueBanDelta` records a delta, the unbans after the bans. -/
def queueBanDelta (ops : Mailbox) (frame : Nat) (add remove : List String) : Mailbox :=
  let ops := (add.map fun k => ⟨k, true, frame⟩).foldl Mailbox.record ops
  (remove.map fun k => ⟨k, false, frame⟩).foldl Mailbox.record ops

/-- `takeBanDelta`: the pending operations, sorted, bans first. -/
def takeBanDelta (ops : Mailbox) : List BanOp :=
  let sorted := ops.rows.insertionSort fun a b => a.entry ≤ b.entry
  sorted.filter (·.ban) ++ sorted.filter (!·.ban)

/-- `BanIP` or `UnbanIP` on a set. -/
def applyOp (enforced : Finset String) (op : BanOp) : Finset String :=
  if op.ban then insert op.entry enforced else enforced.erase op.entry

section mailbox
variable {ops : Mailbox} {op : BanOp} {k : String}

theorem find_record : (ops.record op).find k = if op.entry = k then some op else ops.find k := by
  rw [Mailbox.record, Keyed.find_upsert]
  split
  · rename_i hk
    congr 1
    cases hfind : ops.find k with
    | none => rfl
    | some r =>
      have hr : r.entry = op.entry := (Keyed.find_eq_some.mp hfind).2.trans hk.symm
      simp only [if_true, hr]
  · rfl

theorem find_foldl_record {ks : List String} {ban : Bool} {frame : Nat} :
    ((ks.map fun k => (⟨k, ban, frame⟩ : BanOp)).foldl Mailbox.record ops).find k =
      if k ∈ ks then some ⟨k, ban, frame⟩ else ops.find k := by
  induction ks generalizing ops with
  | nil => rfl
  | cons k' ks ih =>
    rw [List.map_cons, List.foldl_cons, ih, find_record]
    by_cases hks : k ∈ ks
    · simp [hks]
    · by_cases hk : k' = k
      · simp [hk]
      · simp [hks, hk, Ne.symm hk]

theorem find_queueBanDelta {frame : Nat} {add remove : List String} :
    (queueBanDelta ops frame add remove).find k =
      if k ∈ remove then some ⟨k, false, frame⟩
      else if k ∈ add then some ⟨k, true, frame⟩ else ops.find k := by
  rw [queueBanDelta, find_foldl_record, find_foldl_record]

theorem mem_rows_iff : op ∈ ops.rows ↔ ops.find op.entry = some op := by
  rw [Keyed.find_eq_some]
  exact ⟨fun h => ⟨h, rfl⟩, fun h => h.1⟩

theorem mem_queueBanDelta {frame : Nat} {add remove : List String}
    (h : op ∈ (queueBanDelta ops frame add remove).rows) :
    op ∈ ops.rows ∨ op.frame = frame := by
  rw [mem_rows_iff, find_queueBanDelta] at h
  split at h
  · rw [← Option.some.inj h]
    exact .inr rfl
  · split at h
    · rw [← Option.some.inj h]
      exact .inr rfl
    · exact .inl (mem_rows_iff.mpr h)

theorem mem_takeBanDelta : op ∈ takeBanDelta ops ↔ op ∈ ops.rows := by
  rw [takeBanDelta, List.mem_append, List.mem_filter, List.mem_filter,
    (List.perm_insertionSort _ ops.rows).mem_iff]
  cases op.ban <;> simp

end mailbox

/-! ## The set -/

/-- `applyBanDeltaLocked` on a set. -/
def applyBanDeltaLocked (enforced : Finset String) (add remove : List String) : Finset String :=
  (remove.map fun k => (⟨k, false, 0⟩ : BanOp)).foldl applyOp
    ((add.map fun k => (⟨k, true, 0⟩ : BanOp)).foldl applyOp enforced)

/-- What `GetBannedIPs` may return for a set: spellings of its entries, each entry once or more. -/
def Reports (enforced : Finset String) (current : List String) : Prop :=
  (∀ r ∈ current, ∃ k ∈ enforced, banListKey r = some k) ∧
    ∀ k ∈ enforced, ∃ r ∈ current, banListKey r = some k

instance (enforced : Finset String) (current : List String) : Decidable (Reports enforced current) :=
  inferInstanceAs (Decidable (_ ∧ _))

/-- The delta of `resyncFirewall` against what the backend reports. -/
def resyncDelta (want current : List String) : List String × List String :=
  let reported := canonicalBanList current
  (want.filter (· ∉ reported), reported.filter (· ∉ want))

section enforced
variable {enforced : Finset String} {k : String}

theorem mem_foldl_applyOp {ks : List String} {ban : Bool} {frame : Nat} :
    k ∈ (ks.map fun k => (⟨k, ban, frame⟩ : BanOp)).foldl applyOp enforced ↔
      if k ∈ ks then ban = true else k ∈ enforced := by
  induction ks generalizing enforced with
  | nil => simp
  | cons k' ks ih =>
    rw [List.map_cons, List.foldl_cons, ih]
    by_cases hks : k ∈ ks
    · simp [hks]
    · by_cases hk : k = k'
      · subst hk
        cases ban <;> simp [hks, applyOp]
      · cases ban <;> simp [hks, hk, applyOp]

theorem mem_applyBanDeltaLocked {add remove : List String} :
    k ∈ applyBanDeltaLocked enforced add remove ↔ (k ∈ enforced ∨ k ∈ add) ∧ k ∉ remove := by
  rw [applyBanDeltaLocked, mem_foldl_applyOp, mem_foldl_applyOp]
  by_cases hremove : k ∈ remove
  · simp [hremove]
  · by_cases hadd : k ∈ add
    · simp [hremove, hadd]
    · simp [hremove, hadd]

theorem Reports.mem_iff {current : List String} (h : Reports enforced current) :
    k ∈ canonicalBanList current ↔ k ∈ enforced := by
  rw [mem_canonicalBanList]
  constructor
  · rintro ⟨r, hr, hk⟩
    obtain ⟨k', hk', heq⟩ := h.1 r hr
    rw [hk] at heq
    rwa [Option.some.inj heq]
  · intro hk
    exact h.2 k hk

theorem applyBanDeltaLocked_resyncDelta {want current : List String} (h : Reports enforced current) :
    applyBanDeltaLocked enforced (resyncDelta want current).1 (resyncDelta want current).2 =
      want.toFinset := by
  ext k
  rw [mem_applyBanDeltaLocked, List.mem_toFinset]
  simp only [resyncDelta, List.mem_filter, decide_eq_true_eq, h.mem_iff]
  by_cases hwant : k ∈ want
  · simp [hwant, em]
  · simp [hwant]

end enforced

/-! ## The machine -/

/-- The firewall worker: on its signal, with a delta in hand, or applying one under `fwApplyMu`, with
what is left to do. -/
inductive Worker
  | waiting
  | holding (batch : List BanOp)
  | applying (batch todo : List BanOp)
deriving DecidableEq

/-- The delta that the worker took and has not flushed. -/
def Worker.batch : Worker → List BanOp
  | .waiting => []
  | .holding batch => batch
  | .applying batch _ => batch

/-- The worker holds `fwApplyMu`. -/
def Worker.locks : Worker → Bool
  | .applying _ _ => true
  | _ => false

/-- A resync: its list, how many delta frames were received before it, and the guard it filters with. -/
structure Resync where
  since : Nat
  bans : List String
  safe : Net → Bool

/-- The safety-filtered list. -/
def Resync.want (r : Resync) : List String := banFilter r.safe r.bans

/-- Where `resyncFirewall` is. -/
inductive ResyncPhase
  | idle
  | filtered (r : Resync)
  | locked (r : Resync)
  | taken (r : Resync)

/-- The resync holds `fwApplyMu`. -/
def ResyncPhase.locks : ResyncPhase → Bool
  | .locked _ => true
  | .taken _ => true
  | _ => false

structure FirewallState where
  /-- Delta frames received so far. -/
  frames : Nat
  /-- `rt.config`. -/
  config : List BanFrame
  /-- The frame that the config worker applies. -/
  handling : Option BanFrame
  mailbox : Mailbox
  signal : Bool
  worker : Worker
  /-- Resync commands that wait for `queuedCmds.run`, with the frames received before each. -/
  commands : List (Nat × List String)
  resync : ResyncPhase
  enforced : Finset String
  /-- The last resync that completed, if no later one failed. -/
  settled : Option Resync
  /-- What the worker applied since. -/
  log : List BanOp

/-- A process that just started, over what the firewall holds. -/
def FirewallState.init (enforced : Finset String) : FirewallState :=
  ⟨0, [], none, .empty, false, .waiting, [], .idle, enforced, none, []⟩

/-- `fwApplyMu` is free. -/
def FirewallState.unlocked (s : FirewallState) : Bool := !s.worker.locks && !s.resync.locks

/-- `cmdWSConfigQueueSize`. -/
def cmdWSConfigQueueSize : Nat := 16

inductive FirewallAction
  /-- A config frame with a ban list is received. -/
  | frame (add remove : List String)
  /-- A `firewall_resync` command is received. -/
  | command (bans : List String)
  /-- The config worker takes the next frame. -/
  | handle
  /-- It filters the bans and queues the delta. -/
  | queue (safe : Net → Bool)
  /-- The firewall worker wakes up and takes the delta. -/
  | wake
  | lock
  /-- One operation of the delta; the set that is left if it fails. -/
  | apply (failed : Option (Finset String))
  /-- `Flush` and the end of the critical section. -/
  | flush (failed : Option (Finset String))
  /-- A resync command starts and filters its list. -/
  | startResync (command : Nat) (safe : Net → Bool)
  | lockResync
  /-- `takeBanDelta` of the resync: the pending delta is superseded. -/
  | takeResync
  /-- `GetBannedIPs`, the delta against it and its application. -/
  | applyResync (current : List String) (failed : Option (Finset String))
  /-- `GetBannedIPs` fails. -/
  | failResync

/-- One step; `none` where it is not possible. -/
def firewallStep (s : FirewallState) : FirewallAction → Option FirewallState
  | .frame add remove =>
    if s.config.length < cmdWSConfigQueueSize then
      some { s with frames := s.frames + 1, config := s.config ++ [⟨s.frames, add, remove⟩] }
    else none
  | .command bans => some { s with commands := s.commands ++ [(s.frames, bans)] }
  | .handle =>
    match s.handling, s.config with
    | none, f :: config => some { s with handling := some f, config := config }
    | _, _ => none
  | .queue safe =>
    s.handling.map fun f =>
      let add := banFilter safe f.add
      let remove := canonicalBanList f.remove
      if add = [] ∧ remove = [] then { s with handling := none }
      else { s with
        handling := none
        mailbox := queueBanDelta s.mailbox f.frame add remove
        signal := true }
  | .wake =>
    if s.worker = .waiting ∧ s.signal = true then
      let batch := takeBanDelta s.mailbox
      some { s with
        signal := false
        mailbox := .empty
        worker := if batch = [] then .waiting else .holding batch }
    else none
  | .lock =>
    match s.worker with
    | .holding batch => if s.unlocked then some { s with worker := .applying batch batch } else none
    | _ => none
  | .apply failed =>
    match s.worker with
    | .applying batch (op :: todo) => some { s with
        worker := .applying batch todo
        enforced := failed.getD (applyOp s.enforced op)
        log := s.log ++ [op] }
    | _ => none
  | .flush failed =>
    match s.worker with
    | .applying _ [] => some { s with worker := .waiting, enforced := failed.getD s.enforced }
    | _ => none
  | .startResync i safe =>
    match s.resync, s.commands[i]? with
    | .idle, some (since, bans) => some { s with
        commands := s.commands.eraseIdx i
        resync := .filtered ⟨since, bans, safe⟩ }
    | _, _ => none
  | .lockResync =>
    match s.resync with
    | .filtered r => if s.unlocked then some { s with resync := .locked r } else none
    | _ => none
  | .takeResync =>
    match s.resync with
    | .locked r => some { s with mailbox := .empty, resync := .taken r }
    | _ => none
  | .applyResync current failed =>
    match s.resync with
    | .taken r =>
      if Reports s.enforced current then
        let delta := resyncDelta r.want current
        some { s with
          resync := .idle
          enforced := failed.getD (applyBanDeltaLocked s.enforced delta.1 delta.2)
          settled := if failed.isNone then some r else none
          log := [] }
      else none
    | _ => none
  | .failResync =>
    match s.resync with
    | .taken _ => some { s with resync := .idle }
    | _ => none

/-! ## What a step does -/

/-- The steps, each with what it starts from. -/
inductive Fires (s : FirewallState) : FirewallAction → FirewallState → Prop
  | frame (add remove : List String) : Fires s (.frame add remove)
      { s with frames := s.frames + 1, config := s.config ++ [⟨s.frames, add, remove⟩] }
  | command (bans : List String) : Fires s (.command bans)
      { s with commands := s.commands ++ [(s.frames, bans)] }
  | handle {f : BanFrame} {config : List BanFrame} (hconfig : s.config = f :: config)
      (hhandling : s.handling = none) : Fires s .handle
      { s with handling := some f, config := config }
  | dropped {f : BanFrame} (safe : Net → Bool) (hhandling : s.handling = some f)
      (hadd : banFilter safe f.add = []) (hremove : canonicalBanList f.remove = []) :
      Fires s (.queue safe) { s with handling := none }
  | queued {f : BanFrame} (safe : Net → Bool) (hhandling : s.handling = some f) :
      Fires s (.queue safe) { s with
        handling := none
        mailbox := queueBanDelta s.mailbox f.frame (banFilter safe f.add) (canonicalBanList f.remove)
        signal := true }
  | nothing (hworker : s.worker = .waiting) (hempty : takeBanDelta s.mailbox = []) :
      Fires s .wake { s with signal := false, mailbox := .empty, worker := .waiting }
  | took (hworker : s.worker = .waiting) (hbatch : takeBanDelta s.mailbox ≠ []) :
      Fires s .wake { s with
        signal := false, mailbox := .empty, worker := .holding (takeBanDelta s.mailbox) }
  | lock {batch : List BanOp} (hworker : s.worker = .holding batch)
      (hfree : s.resync.locks = false) : Fires s .lock { s with worker := .applying batch batch }
  | apply {batch todo : List BanOp} {op : BanOp} (failed : Option (Finset String))
      (hworker : s.worker = .applying batch (op :: todo)) : Fires s (.apply failed) { s with
        worker := .applying batch todo
        enforced := failed.getD (applyOp s.enforced op)
        log := s.log ++ [op] }
  | flush {batch : List BanOp} (failed : Option (Finset String))
      (hworker : s.worker = .applying batch []) : Fires s (.flush failed)
      { s with worker := .waiting, enforced := failed.getD s.enforced }
  | startResync {r : Resync} (i : Nat) (hidle : s.resync = .idle)
      (hcommand : (r.since, r.bans) ∈ s.commands) : Fires s (.startResync i r.safe)
      { s with commands := s.commands.eraseIdx i, resync := .filtered r }
  | lockResync {r : Resync} (hfiltered : s.resync = .filtered r) (hfree : s.worker.locks = false) :
      Fires s .lockResync { s with resync := .locked r }
  | takeResync {r : Resync} (hlocked : s.resync = .locked r) : Fires s .takeResync
      { s with mailbox := .empty, resync := .taken r }
  | applyResync {r : Resync} {current : List String} (htaken : s.resync = .taken r)
      (hreports : Reports s.enforced current) : Fires s (.applyResync current none) { s with
        resync := .idle
        enforced := applyBanDeltaLocked s.enforced (resyncDelta r.want current).1
          (resyncDelta r.want current).2
        settled := some r
        log := [] }
  | failedApply {r : Resync} {current : List String} (rest : Finset String)
      (htaken : s.resync = .taken r) : Fires s (.applyResync current (some rest))
      { s with resync := .idle, enforced := rest, settled := none, log := [] }
  | failResync {r : Resync} (htaken : s.resync = .taken r) : Fires s .failResync
      { s with resync := .idle }

theorem fires_of_step {s s' : FirewallState} {a : FirewallAction} (h : firewallStep s a = some s') :
    Fires s a s' := by
  cases a with
  | frame add remove =>
    simp only [firewallStep] at h
    split at h
    · cases h
      exact .frame add remove
    · contradiction
  | command bans =>
    cases h
    exact .command bans
  | handle =>
    simp only [firewallStep] at h
    split at h
    · rename_i hnone hconfig
      cases h
      exact .handle hconfig hnone
    · contradiction
  | queue safe =>
    obtain ⟨f, hf, rfl⟩ := Option.map_eq_some_iff.mp h
    dsimp only
    split
    · rename_i hempty
      exact .dropped safe hf hempty.1 hempty.2
    · exact .queued safe hf
  | wake =>
    simp only [firewallStep] at h
    split at h
    · rename_i hready
      cases h
      split
      · rename_i hempty
        exact .nothing hready.1 hempty
      · rename_i hbatch
        exact .took hready.1 hbatch
    · contradiction
  | lock =>
    simp only [firewallStep] at h
    split at h
    · rename_i batch hworker
      split at h
      · rename_i hfree
        cases h
        simp only [FirewallState.unlocked, Bool.and_eq_true, Bool.not_eq_true'] at hfree
        exact .lock hworker hfree.2
      · contradiction
    · contradiction
  | apply failed =>
    simp only [firewallStep] at h
    split at h
    · rename_i hworker
      cases h
      exact .apply failed hworker
    · contradiction
  | flush failed =>
    simp only [firewallStep] at h
    split at h
    · rename_i hworker
      cases h
      exact .flush failed hworker
    · contradiction
  | startResync i safe =>
    simp only [firewallStep] at h
    split at h
    · rename_i since bans hidle hcommand
      cases h
      exact .startResync (r := ⟨since, bans, safe⟩) i hidle (List.mem_of_getElem? hcommand)
    · contradiction
  | lockResync =>
    simp only [firewallStep] at h
    split at h
    · rename_i r hfiltered
      split at h
      · rename_i hfree
        cases h
        simp only [FirewallState.unlocked, Bool.and_eq_true, Bool.not_eq_true'] at hfree
        exact .lockResync hfiltered hfree.1
      · contradiction
    · contradiction
  | takeResync =>
    simp only [firewallStep] at h
    split at h
    · rename_i hlocked
      cases h
      exact .takeResync hlocked
    · contradiction
  | applyResync current failed =>
    simp only [firewallStep] at h
    split at h
    · rename_i r htaken
      split at h
      · rename_i hreports
        cases h
        cases failed with
        | none => exact .applyResync htaken hreports
        | some rest => exact .failedApply rest htaken
      · contradiction
    · contradiction
  | failResync =>
    simp only [firewallStep] at h
    split at h
    · rename_i htaken
      cases h
      exact .failResync htaken
    · contradiction

end Obliguard.Agent

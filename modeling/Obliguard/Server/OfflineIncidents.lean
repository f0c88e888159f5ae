import Mathlib.Data.List.Chain
import Obliguard.Lib.Keyed
import Obliguard.Lib.Runs

/-!
# Offline notifications

The offline incident of one device in `obliguardHub.service.ts`: the grace timer and the sweep declare
it offline, the channel that registers and the heartbeats recover it. The open row is the memory of the
outage, but it is there before the `down` is sent and gone before the `up` is. A recovery that takes
the row of a `declareOffline` that has not decided yet announces an `up` without its `down`
(`offline_not_alternating`), and a device that is suspended, refused or deleted has its row resolved
without an `up`; `offline_alternates` is about the runs in which no step comes between a row and its
notification, and none but a recovery ends an outage that was announced.
-/

namespace Obliguard.Server

open Runs

/-! ## The calls -/

inductive OfflineNote
  | down | up
deriving DecidableEq

/-- A call under way. -/
inductive OfflineCall
  /-- `_startOfflineTimer` resolves the grace delay. -/
  | starting
  /-- `sweepOffline` has the device among its candidates. -/
  | sweeping
  /-- `declareOffline` reads the row of the device. -/
  | reading
  /-- `raiseIncident` runs its transaction. -/
  | raising
  /-- It has committed. -/
  | raised (created : Bool)
  /-- `resolveIncidents` of the row that the call opened, before and after it read the candidates. -/
  | closing
  | closeLocked
  /-- `register` before `recoverOnline`. -/
  | registering
  /-- `recoverOnline`: `resolveIncidents` before and after it read the candidates. -/
  | recovering
  | resolving
  /-- It resolved the incident, and reads the name of the device. -/
  | resolved
  /-- `resolveDeviceIncidents` of a suspension, refusal or deletion: `resolveIncidents` before and
  after it read the candidates. -/
  | withdrawing
  | withdrawLocked
deriving DecidableEq

/-- The call opened the row, and has neither announced it nor closed it. -/
def OfflineCall.unannounced : OfflineCall → Bool
  | .raised true | .closing | .closeLocked => true
  | _ => false

/-- The call resolved the row, and has not announced it. -/
def OfflineCall.upPending (c : OfflineCall) : Bool := c == .resolved

structure OfflineState where
  /-- The row of the device is one of an approved agent. -/
  eligible : Bool
  /-- The channel of the device is in `byDevice`, and open. -/
  connected : Bool
  /-- A timer of `offlineTimers` is running. -/
  timer : Bool
  /-- There is an unresolved `agent_offline` incident. -/
  incident : Bool
  calls : Registry OfflineCall
  /-- The notifications sent. -/
  notes : List OfflineNote

def OfflineState.init (eligible : Bool) : OfflineState := ⟨eligible, false, false, false, .empty, []⟩

inductive OfflineAction
  /-- The device is approved or reinstated. -/
  | approve
  /-- It is suspended, refused or deleted, by a call that resolves its incidents then. -/
  | withdraw (p : Nat)
  /-- A channel registers, with the id of the device known or not. -/
  | register (p : Nat) (known : Bool)
  /-- The channel closes: `_unregister`, or, with nothing known, the close that comes before it. -/
  | disconnect (p : Nat) (known : Bool)
  /-- The grace timer fires. -/
  | fire (p : Nat)
  /-- `sweepOffline` reads its candidates. -/
  | sweep (p : Nat)
  /-- A heartbeat, or a push, after an outage. -/
  | heartbeat (p : Nat)
  | next (p : Nat)
  /-- An error ends a call. -/
  | fail (p : Nat)
  /-- The row is dropped: by a `trimTenant`, by a user who deletes it or clears the alerts of the
  tenant, or with its tenant. -/
  | trim

/-- During its grace period a device is reported as still connected. -/
def OfflineState.isConnected (s : OfflineState) : Bool := s.connected || s.timer

def OfflineState.setCall (s : OfflineState) (p : Nat) (c : OfflineCall) : OfflineState :=
  { s with calls := s.calls.put p c }

def OfflineState.endCall (s : OfflineState) (p : Nat) : OfflineState :=
  { s with calls := s.calls.erase p }

def OfflineState.send (s : OfflineState) (note : OfflineNote) : OfflineState :=
  { s with notes := s.notes ++ [note] }

/-- A call up to its next `await`. -/
def offlineNext (s : OfflineState) (p : Nat) : OfflineCall → OfflineState
  | .starting => if s.connected then s.endCall p else { s with timer := true }.endCall p
  | .sweeping => if s.isConnected then s.endCall p else s.setCall p .reading
  | .reading => if s.eligible && !s.isConnected then s.setCall p .raising else s.endCall p
  | .raising =>
    if s.incident then s.setCall p (.raised false)
    else { s with incident := true }.setCall p (.raised true)
  | .raised true => if s.isConnected then s.setCall p .closing else (s.send .down).endCall p
  | .raised false => if s.isConnected then s.setCall p .recovering else s.endCall p
  | .closing => if s.incident then s.setCall p .closeLocked else s.endCall p
  | .closeLocked => { s with incident := false }.endCall p
  | .registering => s.setCall p .recovering
  | .recovering => if s.incident then s.setCall p .resolving else s.endCall p
  | .resolving =>
    if s.incident then { s with incident := false }.setCall p .resolved else s.endCall p
  | .resolved => (s.send .up).endCall p
  | .withdrawing => if s.incident then s.setCall p .withdrawLocked else s.endCall p
  | .withdrawLocked => { s with incident := false }.endCall p

/-- One step. -/
def offlineStep (s : OfflineState) : OfflineAction → Option OfflineState
  | .approve => some { s with eligible := true }
  | .withdraw p =>
    if (s.calls.get p).isNone then some ({ s with eligible := false }.setCall p .withdrawing) else none
  | .register p known =>
    if (s.calls.get p).isNone then
      let s := { s with connected := true, timer := false }
      some (if known then s.setCall p .registering else s)
    else none
  | .disconnect p known =>
    if (s.calls.get p).isNone then
      let s := { s with connected := false }
      some (if known then s.setCall p .starting else s)
    else none
  | .fire p =>
    if s.timer ∧ (s.calls.get p).isNone then
      let s := { s with timer := false }
      some (if s.isConnected then s else s.setCall p .reading)
    else none
  | .sweep p =>
    if s.eligible ∧ ¬ s.incident ∧ (s.calls.get p).isNone then some (s.setCall p .sweeping) else none
  | .heartbeat p => if (s.calls.get p).isNone then some (s.setCall p .recovering) else none
  | .next p => (s.calls.get p).map (offlineNext s p)
  | .fail p => if (s.calls.get p).isSome then some (s.endCall p) else none
  | .trim => some { s with incident := false }

/-- No step comes between a row and its notification: the row that a `declareOffline` opened is not
resolved by another call, and no `down` is sent while an `up` is due, until the call has announced
it; no such call ends with an error; and no open row is dropped, or resolved by a withdrawal. -/
def announcedApart (s : OfflineState) : OfflineAction → Bool
  | .next p =>
    match s.calls.get p with
    | some .resolving => !s.calls.any OfflineCall.unannounced
    | some (.raised true) => s.isConnected || !s.calls.any OfflineCall.upPending
    | some .withdrawLocked => !s.incident
    | _ => true
  | .fail p => (s.calls.get p).all fun c => !(c.unannounced || c.upPending)
  | .trim => !s.incident
  | _ => true

/-! ## The invariant -/

/-- They alternate, and start with a `down`. -/
def Alternating (notes : List OfflineNote) : Prop :=
  notes.IsChain (· ≠ ·) ∧ notes.head? ≠ some .up

theorem alternating_down {notes : List OfflineNote} (h : Alternating notes)
    (hlast : notes.getLast? ≠ some .down) : Alternating (notes ++ [.down]) := by
  refine ⟨List.isChain_append.mpr ⟨h.1, .singleton _, ?_⟩, ?_⟩
  · intro x hx y hy hxy
    obtain rfl := Option.some.inj hy
    exact hlast (hxy ▸ hx)
  · cases notes with
    | nil => simp
    | cons note notes => exact h.2

theorem alternating_up {notes : List OfflineNote} (h : Alternating notes)
    (hlast : notes.getLast? = some .down) : Alternating (notes ++ [.up]) := by
  refine ⟨List.isChain_append.mpr ⟨h.1, .singleton _, ?_⟩, ?_⟩
  · intro x hx y hy hxy
    obtain rfl := Option.some.inj hy
    rw [hxy, Option.mem_def, hlast] at hx
    contradiction
  · cases notes with
    | nil => contradiction
    | cons note notes => exact h.2

/-- `owner` is the call whose row is not announced, and `pending` the one whose `up` is due. The last
notification is a `down` while its incident is open, or its `up` is due. -/
structure OfflineInv (s : OfflineState) (owner pending : Option Nat) : Prop where
  notes : Alternating s.notes
  ownerSole : s.calls.Sole OfflineCall.unannounced owner
  pendingSole : s.calls.Sole OfflineCall.upPending pending
  opened : owner.isSome → s.incident = true
  apart : pending.isSome → s.incident = true → owner.isSome
  last : s.notes.getLast? = some .down ↔ pending.isSome ∨ s.incident = true ∧ owner = none

section inv
variable {s s' : OfflineState} {owner pending : Option Nat} {p : Nat} {c d : OfflineCall}

theorem offlineInv_init (eligible : Bool) : OfflineInv (.init eligible) none none := by
  refine ⟨⟨.nil, by simp [OfflineState.init]⟩, .empty, .empty, ?_, ?_, ?_⟩
  · simp
  · simp
  · simp [OfflineState.init]

theorem offlineInv_start (h : OfflineInv s owner pending) (hp : s.calls.get p = none)
    (hu : c.unannounced = false) (hup : c.upPending = false) :
    OfflineInv (s.setCall p c) owner pending := by
  refine { h with ownerSole := h.ownerSole.put_same ?_ fun _ => hu,
                  pendingSole := h.pendingSole.put_same ?_ fun _ => hup }
  · intro d hd
    rw [hp] at hd
    contradiction
  · intro d hd
    rw [hp] at hd
    contradiction

theorem offlineInv_setCall (h : OfflineInv s owner pending) (hp : s.calls.get p = some d)
    (hu : d.unannounced = c.unannounced) (hup : d.upPending = c.upPending) :
    OfflineInv (s.setCall p c) owner pending := by
  have hsome : s.calls.get p ≠ none := by simp [hp]
  refine { h with ownerSole := h.ownerSole.put_same ?_ fun hnone => absurd hnone hsome,
                  pendingSole := h.pendingSole.put_same ?_ fun hnone => absurd hnone hsome }
  · intro e he
    obtain rfl := Option.some.inj (hp ▸ he)
    exact hu
  · intro e he
    obtain rfl := Option.some.inj (hp ▸ he)
    exact hup

theorem offlineInv_endCall (h : OfflineInv s owner pending) (hp : s.calls.get p = some d)
    (hu : d.unannounced = false) (hup : d.upPending = false) :
    OfflineInv (s.endCall p) owner pending := by
  refine { h with ownerSole := h.ownerSole.erase_of_not ?_,
                  pendingSole := h.pendingSole.erase_of_not ?_ }
  · intro e he
    obtain rfl := Option.some.inj (hp ▸ he)
    exact hu
  · intro e he
    obtain rfl := Option.some.inj (hp ▸ he)
    exact hup

theorem offlineInv_open (h : OfflineInv s owner pending) (hp : s.calls.get p = some .raising)
    (hclosed : s.incident = false) :
    OfflineInv ({ s with incident := true }.setCall p (.raised true)) (some p) pending := by
  obtain rfl : owner = none := by
    by_contra howner
    have := h.opened (Option.isSome_iff_ne_none.mpr howner)
    simp [hclosed] at this
  refine ⟨h.notes, h.ownerSole.enter rfl, h.pendingSole.put_same ?_ ?_, ?_, ?_, ?_⟩
  · intro e he
    obtain rfl := Option.some.inj (hp ▸ he)
    rfl
  · intro hnone
    simp [hp] at hnone
  · simp [OfflineState.setCall]
  · simp
  · simpa [OfflineState.setCall, hclosed] using h.last

theorem offlineInv_down (h : OfflineInv s owner none) (hp : s.calls.get p = some (.raised true)) :
    OfflineInv ((s.send .down).endCall p) none none := by
  obtain rfl := h.ownerSole.eq_some hp rfl
  have hlast : s.notes.getLast? ≠ some .down := by simp [h.last]
  refine ⟨alternating_down h.notes hlast, h.ownerSole.erase_self, h.pendingSole.erase_of_not ?_,
    ?_, ?_, ?_⟩
  · intro e he
    obtain rfl := Option.some.inj (hp ▸ he)
    rfl
  · simp
  · simp
  · simpa [OfflineState.endCall, OfflineState.send] using h.opened rfl

theorem offlineInv_close (h : OfflineInv s owner pending) (hp : s.calls.get p = some .closeLocked) :
    OfflineInv ({ s with incident := false }.endCall p) none pending := by
  obtain rfl := h.ownerSole.eq_some hp rfl
  refine ⟨h.notes, h.ownerSole.erase_self, h.pendingSole.erase_of_not ?_, ?_, ?_, ?_⟩
  · intro e he
    obtain rfl := Option.some.inj (hp ▸ he)
    rfl
  · simp
  · simp [OfflineState.endCall]
  · simpa [OfflineState.endCall] using h.last

theorem offlineInv_resolve (h : OfflineInv s none pending) (hp : s.calls.get p = some .resolving)
    (hopen : s.incident = true) :
    OfflineInv ({ s with incident := false }.setCall p .resolved) none (some p) := by
  obtain rfl : pending = none := by
    by_contra hpending
    have := h.apart (Option.isSome_iff_ne_none.mpr hpending) hopen
    contradiction
  refine ⟨h.notes, h.ownerSole.put_same ?_ ?_, h.pendingSole.enter rfl, ?_, ?_, ?_⟩
  · intro e he
    obtain rfl := Option.some.inj (hp ▸ he)
    rfl
  · intro hnone
    simp [hp] at hnone
  · simp
  · simp [OfflineState.setCall]
  · simpa [OfflineState.setCall, hopen] using h.last

theorem offlineInv_up (h : OfflineInv s owner pending) (hp : s.calls.get p = some .resolved) :
    OfflineInv ((s.send .up).endCall p) owner none := by
  obtain rfl := h.pendingSole.eq_some hp rfl
  have hlast : s.notes.getLast? = some .down := h.last.mpr (.inl rfl)
  have happart := h.apart rfl
  refine ⟨alternating_up h.notes hlast, h.ownerSole.erase_of_not ?_, h.pendingSole.erase_self,
    h.opened, ?_, ?_⟩
  · intro e he
    obtain rfl := Option.some.inj (hp ▸ he)
    rfl
  · simp
  · simp only [OfflineState.endCall, OfflineState.send, List.getLast?_append, List.getLast?_singleton,
      Option.some_or, Option.isSome_none, Bool.false_eq_true, false_or]
    constructor
    · intro hup
      contradiction
    · rintro ⟨hopen, rfl⟩
      have := happart hopen
      contradiction

theorem offlineInv_next (h : OfflineInv s owner pending) (hp : s.calls.get p = some c)
    (hok : announcedApart s (.next p) = true) :
    ∃ owner' pending', OfflineInv (offlineNext s p c) owner' pending' := by
  rw [announcedApart, hp] at hok
  cases c with
  | starting =>
    rw [offlineNext]
    split
    · exact ⟨owner, pending, offlineInv_endCall h hp rfl rfl⟩
    · exact ⟨owner, pending, offlineInv_endCall (s := { s with timer := true }) { h with } hp rfl rfl⟩
  | sweeping =>
    rw [offlineNext]
    split
    · exact ⟨owner, pending, offlineInv_endCall h hp rfl rfl⟩
    · exact ⟨owner, pending, offlineInv_setCall h hp rfl rfl⟩
  | reading =>
    rw [offlineNext]
    split
    · exact ⟨owner, pending, offlineInv_setCall h hp rfl rfl⟩
    · exact ⟨owner, pending, offlineInv_endCall h hp rfl rfl⟩
  | raising =>
    rw [offlineNext]
    split
    · exact ⟨owner, pending, offlineInv_setCall h hp rfl rfl⟩
    · rename_i hclosed
      exact ⟨_, _, offlineInv_open h hp (Bool.eq_false_iff.mpr hclosed)⟩
  | raised created =>
    cases created with
    | true =>
      rw [offlineNext]
      split
      · exact ⟨owner, pending, offlineInv_setCall h hp rfl rfl⟩
      · rename_i hconnected
        dsimp only at hok
        rw [h.pendingSole.any_eq, Bool.or_eq_true_iff] at hok
        obtain rfl : pending = none := by
          simpa using hok.resolve_left hconnected
        exact ⟨_, _, offlineInv_down h hp⟩
    | false =>
      rw [offlineNext]
      split
      · exact ⟨owner, pending, offlineInv_setCall h hp rfl rfl⟩
      · exact ⟨owner, pending, offlineInv_endCall h hp rfl rfl⟩
  | closing =>
    rw [offlineNext]
    split
    · exact ⟨owner, pending, offlineInv_setCall h hp rfl rfl⟩
    · rename_i hclosed
      have hopen := h.opened (h.ownerSole.eq_some hp rfl ▸ rfl)
      contradiction
  | closeLocked => exact ⟨_, _, offlineInv_close h hp⟩
  | registering => exact ⟨owner, pending, offlineInv_setCall h hp rfl rfl⟩
  | recovering =>
    rw [offlineNext]
    split
    · exact ⟨owner, pending, offlineInv_setCall h hp rfl rfl⟩
    · exact ⟨owner, pending, offlineInv_endCall h hp rfl rfl⟩
  | resolving =>
    rw [offlineNext]
    split
    · rename_i hopen
      dsimp only at hok
      rw [h.ownerSole.any_eq] at hok
      obtain rfl : owner = none := by simpa using hok
      exact ⟨_, _, offlineInv_resolve h hp hopen⟩
    · exact ⟨owner, pending, offlineInv_endCall h hp rfl rfl⟩
  | resolved => exact ⟨_, _, offlineInv_up h hp⟩
  | withdrawing =>
    rw [offlineNext]
    split
    · exact ⟨owner, pending, offlineInv_setCall h hp rfl rfl⟩
    · exact ⟨owner, pending, offlineInv_endCall h hp rfl rfl⟩
  | withdrawLocked =>
    have hclosed : s.incident = false := by simpa using hok
    have hsame : { s with incident := false } = s := by rw [← hclosed]
    rw [offlineNext, hsame]
    exact ⟨owner, pending, offlineInv_endCall h hp rfl rfl⟩

theorem offlineInv_step {a : OfflineAction} (h : ∃ owner pending, OfflineInv s owner pending)
    (hok : announcedApart s a = true) (hs : offlineStep s a = some s') :
    ∃ owner pending, OfflineInv s' owner pending := by
  obtain ⟨owner, pending, h⟩ := h
  cases a with
  | approve =>
    cases hs
    exact ⟨owner, pending, { h with }⟩
  | withdraw p =>
    simp only [offlineStep] at hs
    split at hs
    · rename_i hp
      cases hs
      have hwithdrawn : OfflineInv { s with eligible := false } owner pending := { h with }
      exact ⟨_, _, offlineInv_start hwithdrawn (Option.isNone_iff_eq_none.mp hp) rfl rfl⟩
    · contradiction
  | register p known =>
    simp only [offlineStep] at hs
    split at hs
    · rename_i hp
      cases hs
      have hconnected : OfflineInv { s with connected := true, timer := false } owner pending :=
        { h with }
      cases known with
      | true => exact ⟨_, _, offlineInv_start hconnected (Option.isNone_iff_eq_none.mp hp) rfl rfl⟩
      | false => exact ⟨_, _, hconnected⟩
    · contradiction
  | disconnect p known =>
    simp only [offlineStep] at hs
    split at hs
    · rename_i hp
      cases hs
      have hclosed : OfflineInv { s with connected := false } owner pending := { h with }
      cases known with
      | true => exact ⟨_, _, offlineInv_start hclosed (Option.isNone_iff_eq_none.mp hp) rfl rfl⟩
      | false => exact ⟨_, _, hclosed⟩
    · contradiction
  | fire p =>
    simp only [offlineStep] at hs
    split at hs
    · rename_i hp
      cases hs
      have hfired : OfflineInv { s with timer := false } owner pending := { h with }
      split
      · exact ⟨_, _, hfired⟩
      · exact ⟨_, _, offlineInv_start hfired (Option.isNone_iff_eq_none.mp hp.2) rfl rfl⟩
    · contradiction
  | sweep p =>
    simp only [offlineStep] at hs
    split at hs
    · rename_i hp
      cases hs
      exact ⟨_, _, offlineInv_start h (Option.isNone_iff_eq_none.mp hp.2.2) rfl rfl⟩
    · contradiction
  | heartbeat p =>
    simp only [offlineStep] at hs
    split at hs
    · rename_i hp
      cases hs
      exact ⟨_, _, offlineInv_start h (Option.isNone_iff_eq_none.mp hp) rfl rfl⟩
    · contradiction
  | next p =>
    obtain ⟨c, hp, rfl⟩ := Option.map_eq_some_iff.mp hs
    exact offlineInv_next h hp hok
  | fail p =>
    simp only [offlineStep] at hs
    split at hs
    · rename_i hsome
      cases hs
      obtain ⟨c, hp⟩ := Option.isSome_iff_exists.mp hsome
      simp only [announcedApart, hp, Option.all_some, Bool.not_eq_true', Bool.or_eq_false_iff] at hok
      exact ⟨_, _, offlineInv_endCall h hp hok.1 hok.2⟩
    · contradiction
  | trim =>
    cases hs
    have hclosed : s.incident = false := by simpa [announcedApart] using hok
    exact ⟨owner, pending, by rw [← hclosed]; exact h⟩

end inv

/-! ## Runs -/

/-- In every run under the condition, the notifications alternate, and when no call is under way the
last one is a `down` exactly when an incident is open. -/
theorem offline_alternates (eligible : Bool) (as : List OfflineAction) (s : OfflineState)
    (hok : StepsMeet offlineStep (fun s a => announcedApart s a = true) (.init eligible) as)
    (hrun : run offlineStep (.init eligible) as = some s) :
    Alternating s.notes ∧
      ((∀ p, s.calls.get p = none) → (s.notes.getLast? = some .down ↔ s.incident = true)) := by
  obtain ⟨owner, pending, h⟩ := run_invariant
    (P := fun s => ∃ owner pending, OfflineInv s owner pending)
    (fun _ _ _ h hstep hs => offlineInv_step h hstep hs) ⟨none, none, offlineInv_init eligible⟩ hok hrun
  refine ⟨h.notes, ?_⟩
  intro hidle
  have hnone : ∀ {q : OfflineCall → Bool} {o : Option Nat}, s.calls.Sole q o → o = none := by
    intro q o hsole
    by_contra ho
    obtain ⟨t, rfl⟩ := Option.ne_none_iff_exists'.mp ho
    obtain ⟨c, hc, -⟩ := (hsole t).mp rfl
    rw [hidle t] at hc
    contradiction
  rw [h.last, hnone h.ownerSole, hnone h.pendingSole]
  simp

/-- The agent stays away past its grace delay and comes back; the heartbeat of the new channel finds
the incident resolved. -/
def announcedOutage : List OfflineAction :=
  [.register 0 true, .next 0, .next 0, .disconnect 1 true, .next 1, .fire 2, .next 2, .next 2, .next 2,
    .register 3 true, .next 3, .next 3, .heartbeat 4, .next 4, .next 3, .next 4, .next 3]

theorem offline_alternates_announced : ∃ s, run offlineStep (.init true) announcedOutage = some s ∧
    Alternating s.notes ∧
      ((∀ p, s.calls.get p = none) → (s.notes.getLast? = some .down ↔ s.incident = true)) := by
  obtain ⟨s, hs⟩ : ∃ s, run offlineStep (.init true) announcedOutage = some s := ⟨_, rfl⟩
  exact ⟨s, hs, offline_alternates true announcedOutage s (by decide +kernel) hs⟩

/-- The agent comes back after the row was opened, and before `declareOffline` looks again. -/
def lateReturn : List OfflineAction :=
  [.register 0 true, .next 0, .next 0, .disconnect 1 true, .next 1, .fire 2, .next 2, .next 2,
    .register 3 true, .next 3, .next 3, .next 3, .next 3, .next 2, .next 2]

/-- The `up` of that return is the only notification. -/
theorem offline_not_alternating : ¬ ∀ (eligible : Bool) (as : List OfflineAction) (s : OfflineState),
    run offlineStep (.init eligible) as = some s → Alternating s.notes ∧
      ((∀ p, s.calls.get p = none) → (s.notes.getLast? = some .down ↔ s.incident = true)) := by
  intro h
  obtain ⟨s, hs⟩ : ∃ s, run offlineStep (.init true) lateReturn = some s := ⟨_, rfl⟩
  have halternating := (h true lateReturn s hs).1.2
  obtain rfl := Option.some.inj hs
  exact absurd halternating (by decide)

end Obliguard.Server

import Obliguard.Server.UpdateRollout

/-!
# Offers and their count

`resolveAdvertisedVersion` decides over the row that it read whether a frame carries the version, and
`recordUpdateOffer` decides over the row once more whether the offer of that frame counts. They disagree at
one clock: exactly ten minutes after the last counted offer the version is advertised, and the offer is not
counted (`offers_counted`, first part).

A heartbeat that runs alone for its device counts what it writes, provided that its frame is not written at
that clock, the upsert does not fail, and no report of an attempt with a spent budget reopens it in between
(`CountSafe`; `offers_counted`, second part). The invariant is that the row of a version that is on its way
stays open for it.
-/

namespace Obliguard.Server

open Runs

/-! ## The version of a frame -/

/-- `reserveRolloutSlot`, when no other heartbeat has `slotLock`. -/
def UpdateServer.reserveRolloutSlot (s : UpdateServer) (deviceId : Nat) (now : Int) : Bool :=
  let reservations := purgeReservations s.reservations now
  if reservations.any (·.deviceId == deviceId) then true
  else if s.windowFullAt.any fun fullAt => fullAt ≤ now ∧ now - fullAt < fullRecheckMs then false
  else rolloutWindowHasRoom (countRolloutOffersInWindow s.attempts now) reservations.length

def UpdateServer.withRolloutSlot (s : UpdateServer) (deviceId : Nat) (served : List Char) (now : Int) :
    Option (List Char) :=
  if s.reserveRolloutSlot deviceId now then some served else none

/-- What `resolveAdvertisedVersion` returns. -/
def UpdateServer.resolveAdvertisedVersion (s : UpdateServer) (device : UpdateDevice) (deviceId : Nat)
    (reported : List Char) (now : Int) : Option (List Char) :=
  match s.served with
  | none => none
  | some served =>
    if !(shouldAdvertiseUpdate device served reported now &&
        buildMatchesServed s.manifest served device.artifact) then none
    else match s.attempts.find (deviceId, served) with
      | none => s.withRolloutSlot deviceId served now
      | some a =>
        if a.lastOfferedAt.any (now - · < updateOfferMinIntervalMs) then none
        else if a.phase.isProgress ∧ now - a.updatedAt < updateAttemptTimeoutMs then none
        else if a.phase.isFresh ∨ a.offeredCount < updateRequestMaxOffers then
          s.withRolloutSlot deviceId served now
        else none

/-- Whether `recordUpdateOffer` counts an offer. -/
def UpdateServer.countsOffer (s : UpdateServer) (deviceId : Nat) (version : List Char) (now : Int) : Bool :=
  (AttemptWrite.recordOffer deviceId version now).hits s.attempts (deviceId, version)

/-- The last counted offer of a pair is ten minutes old, to the millisecond. -/
def UpdateServer.dueNow (s : UpdateServer) (k : Nat × List Char) (now : Int) : Bool :=
  (s.attempts.find k).any fun a => a.lastOfferedAt == some (now - updateOfferMinIntervalMs)

/-- The version would be advertised, and its last counted offer is ten minutes old. -/
structure UpdateServer.AtTenMinutes (s : UpdateServer) (device : UpdateDevice) (deviceId : Nat)
    (reported : List Char) (now : Int) (served : List Char) (a : UpdateAttemptRow) : Prop where
  serves : s.served = some served
  advertise : shouldAdvertiseUpdate device served reported now = true
  build : buildMatchesServed s.manifest served device.artifact = true
  row : s.attempts.find (deviceId, served) = some a
  due : a.lastOfferedAt = some (now - updateOfferMinIntervalMs)
  idle : ¬ (a.phase.isProgress ∧ now - a.updatedAt < updateAttemptTimeoutMs)
  budget : a.phase.isFresh ∨ a.offeredCount < updateRequestMaxOffers
  slot : s.reserveRolloutSlot deviceId now = true

/-- A row whose version may be offered at a clock, as `resolveAdvertisedVersion` has it. -/
def UpdateAttemptRow.Due (a : UpdateAttemptRow) (now : Int) : Prop :=
  (∀ l, a.lastOfferedAt = some l → l ≤ now - updateOfferMinIntervalMs) ∧
    (a.phase.isFresh = true ∨ a.offeredCount < updateRequestMaxOffers)

/-! ## The statements of a heartbeat that is alone -/

/-- From a state, the statements of the heartbeat `t` come to the version that its frame will carry. -/
def UpdateServer.Resolves (s : UpdateServer) (t deviceId : Nat) (version : List Char) : Prop :=
  ∃ n s', run updateStep s (List.replicate n (.beatNext t)) = some s' ∧
    s'.beats.get t = some (.granted deviceId version)

section alone
variable {s s' : UpdateServer} {t deviceId : Nat} {version : List Char}

theorem resolves_granted {d : Nat} {v : List Char} (ht : s.beats.get t = some (.granted d v)) :
    s.Resolves t d v := ⟨0, s, rfl, ht⟩

theorem resolves_step {b : Beat} (ht : s.beats.get t = some b) (hs : beatNext s t b = some s')
    (hb : ∀ d v, b ≠ .granted d v) : s.Resolves t deviceId version ↔ s'.Resolves t deviceId version := by
  have hstep : updateStep s (.beatNext t) = some s' := by
    show (s.beats.get t).bind (beatNext s t) = some s'
    rw [ht, Option.bind_some, hs]
  constructor
  · rintro ⟨n, s'', hrun, hgranted⟩
    cases n with
    | zero =>
      rw [← Option.some.inj hrun, ht] at hgranted
      exact absurd (Option.some.inj hgranted) (hb _ _)
    | succ n =>
      obtain ⟨u, hu, hrun⟩ := run_cons.mp hrun
      rw [hstep] at hu
      obtain rfl := Option.some.inj hu
      exact ⟨n, s'', hrun, hgranted⟩
  · rintro ⟨n, s'', hrun, hgranted⟩
    exact ⟨n + 1, s'', run_cons.mpr ⟨s', hstep, hrun⟩, hgranted⟩

theorem not_resolves_ended (ht : s.beats.get t = none) : ¬ s.Resolves t deviceId version := by
  rintro ⟨n, s', hrun, hgranted⟩
  cases n with
  | zero =>
    rw [← Option.some.inj hrun, ht] at hgranted
    contradiction
  | succ n =>
    obtain ⟨u, hu, -⟩ := run_cons.mp hrun
    rw [updateStep, ht] at hu
    contradiction

theorem not_resolves_clearing {d : Nat} {readAt : Int} (ht : s.beats.get t = some (.clearing d readAt)) :
    ¬ s.Resolves t deviceId version := by
  rw [resolves_step ht rfl fun _ _ => Beat.noConfusion]
  exact not_resolves_ended Registry.get_erase_self

theorem not_resolves_abandoning {device : UpdateDevice} {d : Nat} {served : List Char} {now : Int}
    (ht : s.beats.get t = some (.abandoning device d served now)) : ¬ s.Resolves t deviceId version := by
  rw [resolves_step ht rfl fun _ _ => Beat.noConfusion]
  cases device.updateRequestedAt with
  | none => exact not_resolves_ended Registry.get_erase_self
  | some readAt => exact not_resolves_clearing Registry.get_put_self

theorem not_resolves_releasing {d : Nat} (ht : s.beats.get t = some (.releasing d)) :
    ¬ s.Resolves t deviceId version := by
  rw [resolves_step ht rfl fun _ _ => Beat.noConfusion]
  exact not_resolves_ended Registry.get_erase_self

theorem not_resolves_recording {d : Nat} {v : List Char} {now : Int}
    (ht : s.beats.get t = some (.recording d v now)) : ¬ s.Resolves t deviceId version := by
  rw [resolves_step ht rfl fun _ _ => Beat.noConfusion]
  exact not_resolves_releasing (d := d) Registry.get_put_self

theorem resolves_of_granted {v : List Char} (ht : s.beats.get t = some (.granted deviceId v)) :
    s.Resolves t deviceId version ↔ some v = some version := by
  constructor
  · rintro ⟨n, s', hrun, hgranted⟩
    cases n with
    | zero =>
      rw [← Option.some.inj hrun, ht] at hgranted
      rw [(Beat.granted.inj (Option.some.inj hgranted)).2]
    | succ n =>
      obtain ⟨u, hu, hrun⟩ := run_cons.mp hrun
      have hu : (s.setBeat t (.recording deviceId v s.clock)) = u := by
        rw [updateStep, ht] at hu
        exact Option.some.inj hu
      have hrecording : u.beats.get t = some (.recording deviceId v s.clock) := by
        rw [← hu]
        exact Registry.get_put_self
      exact absurd ⟨n, s', hrun, hgranted⟩ (not_resolves_recording hrecording)
  · intro hv
    rw [← Option.some.inj hv]
    exact resolves_granted ht

theorem resolves_counted {v : List Char} {now : Int} {offers : Nat}
    (ht : s.beats.get t = some (.counted deviceId v now offers)) : s.Resolves t deviceId version ↔
      (if rolloutWindowHasRoom offers s.reservations.length then some v else none) = some version := by
  by_cases hroom : rolloutWindowHasRoom offers s.reservations.length = true
  · rw [resolves_step ht (if_pos hroom) fun _ _ => Beat.noConfusion, if_pos hroom]
    exact resolves_of_granted Registry.get_put_self
  · rw [resolves_step ht (if_neg hroom) fun _ _ => Beat.noConfusion, if_neg hroom]
    refine iff_of_false (not_resolves_ended Registry.get_erase_self) ?_
    exact (Option.some_ne_none version).symm

theorem resolves_queued {v : List Char} {now : Int}
    (ht : s.beats.get t = some (.queued deviceId v now)) (hqueue : s.queue = [t]) :
    s.Resolves t deviceId version ↔ s.withRolloutSlot deviceId v now = some version := by
  have hstep : beatNext s t (.queued deviceId v now) = some (s.reserve t deviceId v now) := by
    rw [beatNext, hqueue]
    exact if_pos rfl
  rw [resolves_step ht hstep fun _ _ => Beat.noConfusion, UpdateServer.withRolloutSlot,
    UpdateServer.reserveRolloutSlot, UpdateServer.reserve]
  dsimp only
  by_cases hown : (purgeReservations s.reservations now).any (·.deviceId == deviceId) = true
  · rw [if_pos hown, if_pos hown]
    exact resolves_of_granted Registry.get_put_self
  · rw [if_neg hown, if_neg hown]
    by_cases hfull : s.windowFullAt.any (fun fullAt => fullAt ≤ now ∧ now - fullAt < fullRecheckMs) = true
    · rw [if_pos hfull, if_pos hfull]
      refine iff_of_false (not_resolves_ended Registry.get_erase_self) ?_
      exact (Option.some_ne_none version).symm
    · rw [if_neg hfull, if_neg hfull]
      -- the count, and what it is used for
      rw [resolves_step Registry.get_put_self rfl fun _ _ => Beat.noConfusion]
      exact resolves_counted Registry.get_put_self

theorem resolves_enqueue {v : List Char} {now : Int} (hqueue : s.queue = []) :
    (s.enqueue t deviceId v now).Resolves t deviceId version ↔
      s.withRolloutSlot deviceId v now = some version := by
  refine resolves_queued Registry.get_put_self ?_
  show s.queue ++ [t] = [t]
  rw [hqueue]
  rfl

theorem resolves_iff {device : UpdateDevice} {reported : List Char} (hqueue : s.queue = []) :
    (s.setBeat t (.loaded device deviceId reported)).Resolves t deviceId version ↔
      s.resolveAdvertisedVersion device deviceId reported s.clock = some version := by
  have hnone : ¬ (none : Option (List Char)) = some version := (Option.some_ne_none version).symm
  rw [UpdateServer.resolveAdvertisedVersion]
  cases hserved : s.served with
  | none =>
    have hstep : beatNext (s.setBeat t (.loaded device deviceId reported)) t (.loaded device deviceId reported) =
        some ((s.setBeat t (.loaded device deviceId reported)).endBeat t) := by
      simp only [beatNext, UpdateServer.setBeat, hserved]
    rw [resolves_step Registry.get_put_self hstep fun _ _ => Beat.noConfusion]
    exact iff_of_false (not_resolves_ended Registry.get_erase_self) hnone
  | some served =>
    have hstep : beatNext (s.setBeat t (.loaded device deviceId reported)) t (.loaded device deviceId reported) =
        if shouldAdvertiseUpdate device served reported s.clock &&
            buildMatchesServed s.manifest served device.artifact then
          some ((s.setBeat t (.loaded device deviceId reported)).setBeat t
            (.selecting device deviceId served s.clock))
        else some ((s.setBeat t (.loaded device deviceId reported)).endBeat t) := by
      simp only [beatNext, UpdateServer.setBeat, hserved]
    dsimp only
    by_cases hoffer : (shouldAdvertiseUpdate device served reported s.clock &&
        buildMatchesServed s.manifest served device.artifact) = true
    · rw [if_pos hoffer] at hstep
      rw [resolves_step Registry.get_put_self hstep fun _ _ => Beat.noConfusion, if_neg (by rw [hoffer]; decide),
        resolves_step Registry.get_put_self rfl fun _ _ => Beat.noConfusion, UpdateServer.advertise]
      show UpdateServer.Resolves (match s.attempts.find (deviceId, served) with | none => _ | some a => _) _ _ _ ↔ _
      cases s.attempts.find (deviceId, served) with
      | none => exact resolves_enqueue hqueue
      | some a =>
        dsimp only
        by_cases hspaced : a.lastOfferedAt.any (s.clock - · < updateOfferMinIntervalMs) = true
        · rw [if_pos hspaced, if_pos hspaced]
          exact iff_of_false (not_resolves_ended Registry.get_erase_self) hnone
        · rw [if_neg hspaced, if_neg hspaced]
          by_cases hflight : a.phase.isProgress ∧ s.clock - a.updatedAt < updateAttemptTimeoutMs
          · rw [if_pos hflight, if_pos hflight]
            exact iff_of_false (not_resolves_ended Registry.get_erase_self) hnone
          · rw [if_neg hflight, if_neg hflight]
            by_cases hbudget : a.phase.isFresh ∨ a.offeredCount < updateRequestMaxOffers
            · rw [if_pos hbudget, if_pos hbudget]
              exact resolves_enqueue hqueue
            · rw [if_neg hbudget, if_neg hbudget]
              exact iff_of_false (not_resolves_abandoning Registry.get_put_self) hnone
    · rw [if_neg hoffer] at hstep
      rw [resolves_step Registry.get_put_self hstep fun _ _ => Beat.noConfusion,
        if_pos (by rw [Bool.eq_false_of_not_eq_true hoffer]; rfl)]
      exact iff_of_false (not_resolves_ended Registry.get_erase_self) hnone

end alone

/-! ## The two decisions -/

section decisions
variable {s : UpdateServer} {device : UpdateDevice} {deviceId : Nat} {reported version : List Char} {now : Int}

theorem any_spaced_iff {l : Option Int} :
    l.any (now - · < updateOfferMinIntervalMs) = true ↔ ¬ ∀ x, l = some x → x ≤ now - updateOfferMinIntervalMs := by
  cases l with
  | none => simp
  | some x =>
    rw [Option.any_some, decide_eq_true_eq]
    constructor
    · intro hlt hle
      have := hle x rfl
      omega
    · intro hne
      by_contra hlt
      apply hne
      intro y hy
      obtain rfl := Option.some.inj hy
      omega

theorem withRolloutSlot_eq_some {served : List Char} :
    s.withRolloutSlot deviceId served now = some version ↔
      served = version ∧ s.reserveRolloutSlot deviceId now = true := by
  rw [UpdateServer.withRolloutSlot]
  by_cases hslot : s.reserveRolloutSlot deviceId now = true
  · rw [if_pos hslot, Option.some.injEq]
    exact (and_iff_left hslot).symm
  · rw [if_neg hslot]
    exact iff_of_false (Option.some_ne_none version).symm fun h => hslot h.2

theorem resolve_eq_some : s.resolveAdvertisedVersion device deviceId reported now = some version ↔
    s.served = some version ∧ (shouldAdvertiseUpdate device version reported now = true ∧
      buildMatchesServed s.manifest version device.artifact = true) ∧
      (∀ a, s.attempts.find (deviceId, version) = some a → a.Due now ∧
        ¬ (a.phase.isProgress ∧ now - a.updatedAt < updateAttemptTimeoutMs)) ∧
      s.reserveRolloutSlot deviceId now = true := by
  rw [UpdateServer.resolveAdvertisedVersion]
  have hnone : ¬ (none : Option (List Char)) = some version := (Option.some_ne_none version).symm
  cases hserved : s.served with
  | none => exact iff_of_false hnone fun h => hnone h.1
  | some served =>
    dsimp only
    by_cases hoffer : (shouldAdvertiseUpdate device served reported now &&
        buildMatchesServed s.manifest served device.artifact) = true
    · rw [if_neg (by rw [hoffer]; decide)]
      rw [Bool.and_eq_true] at hoffer
      constructor
      · intro h
        obtain ⟨rfl, hrow, hslot⟩ : served = version ∧ (∀ a, s.attempts.find (deviceId, served) = some a →
            a.Due now ∧ ¬ (a.phase.isProgress ∧ now - a.updatedAt < updateAttemptTimeoutMs)) ∧
            s.reserveRolloutSlot deviceId now = true := by
          cases hfind : s.attempts.find (deviceId, served) with
          | none =>
            rw [hfind] at h
            obtain ⟨hv, hslot⟩ := withRolloutSlot_eq_some.mp h
            exact ⟨hv, fun a ha => absurd ha.symm (Option.some_ne_none a), hslot⟩
          | some a =>
            rw [hfind] at h
            dsimp only at h
            split at h
            · contradiction
            · rename_i hspaced
              rw [any_spaced_iff, not_not] at hspaced
              split at h
              · contradiction
              · rename_i hflight
                split at h
                · rename_i hbudget
                  obtain ⟨hv, hslot⟩ := withRolloutSlot_eq_some.mp h
                  refine ⟨hv, ?_, hslot⟩
                  intro b hb
                  obtain rfl := Option.some.inj hb
                  exact ⟨⟨hspaced, hbudget⟩, hflight⟩
                · contradiction
        exact ⟨rfl, hoffer, hrow, hslot⟩
      · rintro ⟨hv, -, hrow, hslot⟩
        obtain rfl := Option.some.inj hv
        have hsome : s.withRolloutSlot deviceId served now = some served :=
          withRolloutSlot_eq_some.mpr ⟨rfl, hslot⟩
        cases hfind : s.attempts.find (deviceId, served) with
        | none => exact hsome
        | some a =>
          obtain ⟨⟨hspaced, hbudget⟩, hflight⟩ := hrow a hfind
          dsimp only
          rw [if_neg (by rw [any_spaced_iff, not_not]; exact hspaced), if_neg hflight, if_pos hbudget]
          exact hsome
    · rw [if_pos (by rw [Bool.eq_false_of_not_eq_true hoffer]; rfl)]
      refine iff_of_false hnone ?_
      rintro ⟨hv, hor, -⟩
      obtain rfl := Option.some.inj hv
      exact hoffer (by rw [hor.1, hor.2]; rfl)

theorem countsOffer_iff : s.countsOffer deviceId version now = true ↔
    ∀ a, s.attempts.find (deviceId, version) = some a →
      a.Due now ∧ a.lastOfferedAt ≠ some (now - updateOfferMinIntervalMs) := by
  rw [UpdateServer.countsOffer, AttemptWrite.hits]
  cases hfind : s.attempts.find (deviceId, version) with
  | none => simp [AttemptWrite.inserts, attemptKey]
  | some a =>
    have hkey : attemptKey a = (deviceId, version) := (Keyed.find_eq_some.mp hfind).2
    dsimp only
    rw [AttemptWrite.cond, hkey, beq_self_eq_true, Bool.true_and, Bool.and_eq_true, Bool.or_eq_true,
      decide_eq_true_eq]
    have hyoung : a.lastOfferedAt.all (· < now - updateOfferMinIntervalMs) = true ↔
        (∀ l, a.lastOfferedAt = some l → l ≤ now - updateOfferMinIntervalMs) ∧
          a.lastOfferedAt ≠ some (now - updateOfferMinIntervalMs) := by
      cases a.lastOfferedAt with
      | none => simp
      | some l =>
        simp only [Option.all_some, decide_eq_true_eq, Option.some.injEq, forall_eq', ne_eq]
        omega
    rw [hyoung]
    constructor
    · rintro ⟨⟨hle, hne⟩, hbudget⟩ b hb
      obtain rfl := Option.some.inj hb
      exact ⟨⟨hle, hbudget⟩, hne⟩
    · intro h
      obtain ⟨⟨hle, hbudget⟩, hne⟩ := h a rfl
      exact ⟨⟨hle, hne⟩, hbudget⟩

theorem resolve_counts_iff :
    (∀ version, s.resolveAdvertisedVersion device deviceId reported now = some version →
      s.countsOffer deviceId version now = true) ↔
    ¬ ∃ served a, s.AtTenMinutes device deviceId reported now served a := by
  constructor
  · rintro h ⟨served, a, hten⟩
    have hdue : a.Due now := by
      refine ⟨?_, hten.budget⟩
      intro l hl
      rw [hten.due] at hl
      exact le_of_eq (Option.some.inj hl).symm
    have hresolve : s.resolveAdvertisedVersion device deviceId reported now = some served := by
      refine resolve_eq_some.mpr ⟨hten.serves, ⟨hten.advertise, hten.build⟩, ?_, hten.slot⟩
      intro b hb
      rw [hten.row] at hb
      obtain rfl := Option.some.inj hb
      exact ⟨hdue, hten.idle⟩
    exact (countsOffer_iff.mp (h served hresolve) a hten.row).2 hten.due
  · intro h version hresolve
    obtain ⟨hserved, ⟨hshould, hbuild⟩, hrow, hslot⟩ := resolve_eq_some.mp hresolve
    refine countsOffer_iff.mpr ?_
    intro a ha
    obtain ⟨hdue, hidle⟩ := hrow a ha
    refine ⟨hdue, ?_⟩
    intro hten
    exact h ⟨version, a, hserved, hshould, hbuild, ha, hten, hidle, hdue.2, hslot⟩

end decisions

/-! ## A version on its way -/

def Beat.deviceId : Beat → Nat
  | .loaded _ deviceId _ | .selecting _ deviceId _ _ | .abandoning _ deviceId _ _ | .clearing deviceId _
  | .queued deviceId _ _ | .counting deviceId _ _ | .counted deviceId _ _ _ | .granted deviceId _
  | .recording deviceId _ _ | .releasing deviceId => deviceId

/-- The version of a heartbeat between the select of its row and the count of its offer. -/
def Beat.carries : Beat → Option (List Char)
  | .queued _ version _ | .counting _ version _ | .counted _ version _ _ | .granted _ version
  | .recording _ version _ => some version
  | _ => none

/-- Where a heartbeat can go from `b` in a state. -/
structure Moves (s : UpdateServer) (b b' : Beat) : Prop where
  device : b'.deviceId = b.deviceId
  carries : ∀ v, b'.carries = some v → b.carries = some v ∨
    ∃ device now, b = .selecting device b.deviceId v now ∧
      ∀ a, s.attempts.find (b.deviceId, v) = some a → a.Due now
  selecting : ∀ device d served now, b' = .selecting device d served now → now = s.clock
  recording : ∀ d v now, b' = .recording d v now → b = .granted d v ∧ now = s.clock

section moves
variable {s s' : UpdateServer} {t : Nat} {b c : Beat}

theorem Moves.keep (hdevice : c.deviceId = b.deviceId) (hcarries : ∀ v, c.carries = some v → b.carries = some v)
    (hselecting : ∀ device d served now, c ≠ .selecting device d served now)
    (hrecording : ∀ d v now, c ≠ .recording d v now) : Moves s b c where
  device := hdevice
  carries v hv := .inl (hcarries v hv)
  selecting device d served now h := absurd h (hselecting device d served now)
  recording d v now h := absurd h (hrecording d v now)

theorem moves_advertise {device : UpdateDevice} {d : Nat} {served : List Char} {now : Int}
    (hc : (s.advertise t device d served now).beats.get t = some c) :
    Moves s (.selecting device d served now) c := by
  have hqueued : (∀ a, s.attempts.find (d, served) = some a → a.Due now) →
      Moves s (.selecting device d served now) (.queued d served now) := by
    intro hdue
    refine ⟨rfl, ?_, fun _ _ _ _ => Beat.noConfusion, fun _ _ _ => Beat.noConfusion⟩
    intro v hv
    obtain rfl := Option.some.inj hv
    exact .inr ⟨device, now, rfl, hdue⟩
  unfold UpdateServer.advertise at hc
  split at hc
  · rename_i hfind
    obtain rfl := Option.some.inj (Registry.get_put_self.symm.trans hc)
    exact hqueued fun a ha => absurd (hfind.symm.trans ha) (Option.some_ne_none a).symm
  · rename_i a hfind
    split at hc
    · exact absurd (Registry.get_erase_self.symm.trans hc) (Option.some_ne_none c).symm
    · rename_i hspaced
      rw [any_spaced_iff, not_not] at hspaced
      split at hc
      · exact absurd (Registry.get_erase_self.symm.trans hc) (Option.some_ne_none c).symm
      · split at hc
        · rename_i hbudget
          obtain rfl := Option.some.inj (Registry.get_put_self.symm.trans hc)
          apply hqueued
          intro a' ha'
          obtain rfl := Option.some.inj (hfind.symm.trans ha')
          exact ⟨hspaced, hbudget⟩
        · obtain rfl := Option.some.inj (Registry.get_put_self.symm.trans hc)
          exact Moves.keep rfl (fun _ h => h) (fun _ _ _ _ => Beat.noConfusion)
            fun _ _ _ => Beat.noConfusion

theorem moves_reserve {d : Nat} {v : List Char} {now : Int}
    (hc : (s.reserve t d v now).beats.get t = some c) : Moves s (.queued d v now) c := by
  have hkeep : ∀ c, c = .granted d v ∨ c = .counting d v now → Moves s (.queued d v now) c := by
    rintro c (rfl | rfl)
    · exact Moves.keep rfl (fun _ h => h) (fun _ _ _ _ => Beat.noConfusion) fun _ _ _ => Beat.noConfusion
    · exact Moves.keep rfl (fun _ h => h) (fun _ _ _ _ => Beat.noConfusion) fun _ _ _ => Beat.noConfusion
  unfold UpdateServer.reserve at hc
  dsimp only at hc
  split at hc
  · exact hkeep c (.inl (Option.some.inj (Registry.get_put_self.symm.trans hc)).symm)
  · split at hc
    · exact absurd (Registry.get_erase_self.symm.trans hc) (Option.some_ne_none c).symm
    · exact hkeep c (.inr (Option.some.inj (Registry.get_put_self.symm.trans hc)).symm)

theorem not_get_erase {p : Registry Beat} (hc : (p.erase t).get t = some c) : False :=
  absurd (Registry.get_erase_self.symm.trans hc) (Option.some_ne_none c).symm

theorem eq_of_get_put {p : Registry Beat} {c' : Beat} (hc : (p.put t c').get t = some c) : c' = c :=
  Option.some.inj (Registry.get_put_self.symm.trans hc)

theorem moves_beatNext (h : beatNext s t b = some s') (hc : s'.beats.get t = some c) : Moves s b c := by
  cases b with
  | loaded device d reported =>
    simp only [beatNext] at h
    split at h
    · split at h
      · rw [← Option.some.inj h] at hc
        obtain rfl := eq_of_get_put hc
        refine ⟨rfl, fun v hv => absurd hv.symm (Option.some_ne_none v), ?_, fun _ _ _ => Beat.noConfusion⟩
        intro device d served now hb
        exact (Beat.selecting.inj hb).2.2.2.symm
      · rw [← Option.some.inj h] at hc
        exact (not_get_erase hc).elim
    · rw [← Option.some.inj h] at hc
      exact (not_get_erase hc).elim
  | selecting device d served now =>
    rw [← Option.some.inj h] at hc
    exact moves_advertise hc
  | abandoning device d served now =>
    simp only [beatNext] at h
    split at h
    · rw [← Option.some.inj h] at hc
      obtain rfl := eq_of_get_put hc
      exact Moves.keep rfl (fun _ hv => hv) (fun _ _ _ _ => Beat.noConfusion) fun _ _ _ => Beat.noConfusion
    · rw [← Option.some.inj h] at hc
      exact (not_get_erase hc).elim
  | clearing d readAt =>
    rw [← Option.some.inj h] at hc
    exact (not_get_erase hc).elim
  | queued d v now =>
    simp only [beatNext] at h
    split at h
    · rw [← Option.some.inj h] at hc
      exact moves_reserve hc
    · contradiction
  | counting d v now =>
    rw [← Option.some.inj h] at hc
    obtain rfl := eq_of_get_put hc
    exact Moves.keep rfl (fun _ hv => hv) (fun _ _ _ _ => Beat.noConfusion) fun _ _ _ => Beat.noConfusion
  | counted d v now offers =>
    simp only [beatNext] at h
    split at h
    · rw [← Option.some.inj h] at hc
      obtain rfl := eq_of_get_put hc
      exact Moves.keep rfl (fun _ hv => hv) (fun _ _ _ _ => Beat.noConfusion) fun _ _ _ => Beat.noConfusion
    · rw [← Option.some.inj h] at hc
      exact (not_get_erase hc).elim
  | granted d v =>
    rw [← Option.some.inj h] at hc
    obtain rfl := eq_of_get_put hc
    refine ⟨rfl, fun _ hv => .inl hv, fun _ _ _ _ => Beat.noConfusion, ?_⟩
    intro d v now hb
    obtain ⟨rfl, rfl, rfl⟩ := Beat.recording.inj hb
    exact ⟨rfl, rfl⟩
  | recording d v now =>
    rw [← Option.some.inj h] at hc
    obtain rfl := eq_of_get_put hc
    exact Moves.keep rfl (fun v hv => absurd hv.symm (Option.some_ne_none v)) (fun _ _ _ _ => Beat.noConfusion)
      fun _ _ _ => Beat.noConfusion
  | releasing d =>
    rw [← Option.some.inj h] at hc
    exact (not_get_erase hc).elim

theorem moves_beatFail (h : beatFail s t b = some s') (hc : s'.beats.get t = some c) : Moves s b c := by
  cases b with
  | loaded | queued | counted | releasing => contradiction
  | selecting | abandoning | clearing | granted | counting =>
    rw [← Option.some.inj h] at hc
    exact (not_get_erase hc).elim
  | recording d v now =>
    rw [← Option.some.inj h] at hc
    obtain rfl := eq_of_get_put hc
    exact Moves.keep rfl (fun v hv => absurd hv.symm (Option.some_ne_none v)) (fun _ _ _ _ => Beat.noConfusion)
      fun _ _ _ => Beat.noConfusion

end moves

/-! ## The condition -/

/-- A report of an agent that takes an attempt out of its rest, with three offers behind it. -/
def AttemptWrite.reopens (w : AttemptWrite) (r : UpdateAttemptRow) : Bool :=
  match w with
  | .applyStatus .. | .install .. =>
    w.cond r && r.phase.isFresh && decide (updateRequestMaxOffers ≤ r.offeredCount)
  | _ => false

/-- No report reopens the spent attempt of a version on its way to the device, its heartbeats come one after
the other, and no frame is written ten minutes after the last counted offer or fails to be recorded. -/
def countSafe (deviceId : Nat) (s : UpdateServer) (a : UpdateAction) : Bool :=
  (s.statement a).all (fun w => !s.beats.any fun b => b.deviceId == deviceId &&
    b.carries.any fun v => (s.attempts.find (deviceId, v)).any w.reopens) &&
  match a with
  | .beat _ d _ => d != deviceId || !s.beats.any (·.deviceId == deviceId)
  | .beatNext t => match s.beats.get t with
    | some (.granted d v) => d != deviceId || !s.dueNow (d, v) s.clock
    | _ => true
  | .beatFail t => match s.beats.get t with
    | some (.recording d _ _) => d != deviceId
    | _ => true
  | _ => true

/-! ## Rows that stay open -/

/-- The row of the version that a heartbeat carries is open for its offer. -/
structure Beat.Ready (b : Beat) (clock : Int) (a : UpdateAttemptRow) : Prop where
  budget : a.phase.isFresh = true ∨ a.offeredCount < updateRequestMaxOffers
  waiting : ∀ l, a.lastOfferedAt = some l → l ≤ clock - updateOfferMinIntervalMs
  recording : ∀ d v now, b = .recording d v now → ∀ l, a.lastOfferedAt = some l →
    l < now - updateOfferMinIntervalMs

theorem Beat.Ready.later {b : Beat} {clock clock' : Int} {a : UpdateAttemptRow} (h : b.Ready clock a)
    (hle : clock ≤ clock') : b.Ready clock' a where
  budget := h.budget
  waiting l hl := by
    have := h.waiting l hl
    omega
  recording := h.recording

section rows
variable {w : AttemptWrite} (hw : w.isOffer = false)
  (hrevert : ∀ k phase now, w = .revert k phase now → phase = .installing ∨ phase = .restarting)
include hw hrevert

theorem budget_set {r : UpdateAttemptRow} (hcond : w.cond r = true) (hsafe : w.reopens r = false)
    (h : r.phase.isFresh = true ∨ r.offeredCount < updateRequestMaxOffers) :
    (w.set r).phase.isFresh = true ∨ (w.set r).offeredCount < updateRequestMaxOffers := by
  -- an attempt that was not at rest has offers left, and a report counts none
  have hkeep : r.phase.isFresh = false → r.offeredCount < updateRequestMaxOffers := by
    intro hopen
    rw [hopen] at h
    exact h.resolve_left Bool.false_ne_true
  cases w with
  | recordOffer => contradiction
  | restoreBudget => exact .inr (Nat.zero_lt_succ 2)
  | succeed | cancel => exact .inl rfl
  | applyStatus | install =>
    rw [AttemptWrite.reopens, hcond, Bool.true_and, Bool.and_eq_false_iff, decide_eq_false_iff_not,
      Nat.not_le] at hsafe
    exact .inr (hsafe.elim hkeep id)
  | revert k phase now =>
    rw [AttemptWrite.cond, Bool.and_eq_true, beq_iff_eq, beq_iff_eq] at hcond
    refine .inr (hkeep ?_)
    rcases hrevert k phase now rfl with hphase | hphase
    · rw [hcond.2, hphase]
      rfl
    · rw [hcond.2, hphase]
      rfl
  | noProgress =>
    rw [AttemptWrite.cond] at hcond
    refine .inr (hkeep ?_)
    cases hphase : r.phase with
    | cancelled | succeeded =>
      rw [hphase] at hcond
      simp at hcond
    | offered | downloading | verifying | installing | restarting | failed => rfl
  | timeOut =>
    rw [AttemptWrite.cond] at hcond
    refine .inr (hkeep ?_)
    cases hphase : r.phase with
    | cancelled | succeeded =>
      rw [hphase] at hcond
      simp [AgentUpdatePhase.isProgress] at hcond
    | offered | downloading | verifying | installing | restarting | failed => rfl

theorem ready_exec {t : Keyed attemptKey} {k : Nat × List Char} {b : Beat} {clock : Int}
    (hsafe : ∀ r, t.find k = some r → w.reopens r = false)
    (h : ∀ r, t.find k = some r → b.Ready clock r) :
    ∀ r, (w.exec t).find k = some r → b.Ready clock r := by
  intro r hr
  rw [AttemptWrite.find_exec] at hr
  cases hfind : t.find k with
  | none =>
    -- a report has inserted the row, without an offer
    rw [hfind] at hr
    have hins := (Option.eq_some_of_filter_eq_some hr)
    cases w with
    | recordOffer => contradiction
    | applyStatus deviceId st now =>
      rw [← Option.some.inj hins]
      exact ⟨.inr (Nat.zero_lt_succ _), fun l hl => absurd hl.symm (Option.some_ne_none l),
        fun _ _ _ _ l hl => absurd hl.symm (Option.some_ne_none l)⟩
    | restoreBudget | install | succeed | revert | cancel | noProgress | timeOut => contradiction
  | some r0 =>
    rw [hfind] at hr
    have hready := h r0 hfind
    rw [← Option.some.inj hr]
    by_cases hcond : w.cond r0 = true
    · rw [if_pos hcond]
      refine ⟨budget_set hw hrevert hcond (hsafe r0 hfind) hready.budget, ?_, ?_⟩
      · rw [lastOfferedAt_set hw]
        exact hready.waiting
      · rw [lastOfferedAt_set hw]
        exact hready.recording
    · rw [if_neg hcond]
      exact hready

end rows

/-! ## The invariant -/

/-- One heartbeat of the device at a time, and the version that it carries stays open. -/
structure CountInv (deviceId : Nat) (s : UpdateServer) : Prop where
  alone : ∀ t u b c, s.beats.get t = some b → s.beats.get u = some c →
    b.deviceId = deviceId → c.deviceId = deviceId → t = u
  selected : ∀ t device served now, s.beats.get t = some (.selecting device deviceId served now) →
    now ≤ s.clock
  ready : ∀ t b v, s.beats.get t = some b → b.deviceId = deviceId → b.carries = some v →
    ∀ a, s.attempts.find (deviceId, v) = some a → b.Ready s.clock a

section invariant
variable {s s' : UpdateServer} {a : UpdateAction} {deviceId t d : Nat} {v reported : List Char}

theorem not_reopens (hok : countSafe deviceId s a = true) {w : AttemptWrite} (hw : s.statement a = some w)
    {b : Beat} (ht : s.beats.get t = some b) (hb : b.deviceId = deviceId) (hv : b.carries = some v)
    {r : UpdateAttemptRow} (hr : s.attempts.find (deviceId, v) = some r) : w.reopens r = false := by
  by_contra hreopens
  unfold countSafe at hok
  rw [Bool.and_eq_true, hw, Option.all_some, Bool.not_eq_true', ← Bool.not_eq_true,
    Registry.any_eq_true] at hok
  apply hok.1
  refine ⟨t, b, ht, ?_⟩
  rw [hb, beq_self_eq_true, Bool.true_and, hv, Option.any_some, hr, Option.any_some]
  exact Bool.eq_true_of_not_eq_false hreopens

/-- A step under the condition keeps the row of the version of a heartbeat that it does not move, or that
does not record its offer by it. -/
theorem CountInv.ready_rows (h : CountInv deviceId s) (hok : countSafe deviceId s a = true)
    (hs : updateStep s a = some s') {b : Beat} (ht : s.beats.get t = some b) (hb : b.deviceId = deviceId)
    (hv : b.carries = some v) (hrecord : ∀ now, a = .beatNext t → b ≠ .recording deviceId v now) :
    ∀ r, s'.attempts.find (deviceId, v) = some r → b.Ready s'.clock r := by
  have hdoes := updateStep_does hs
  have hattempts := hdoes.attempts
  have hclock := hdoes.clock
  have hready := h.ready t b v ht hb hv
  intro r hr
  refine Beat.Ready.later ?_ hclock
  rw [hattempts] at hr
  cases hw : s.statement a with
  | none =>
    rw [hw] at hr
    exact hready r hr
  | some w =>
    rw [hw] at hr
    have horigin := statement_origin hw
    by_cases hoffer : w.isOffer = true
    · cases w with
      | recordOffer d v' now =>
        obtain ⟨u, rfl, hu⟩ := horigin
        have hk : (d, v') ≠ (deviceId, v) := by
          intro hk
          obtain ⟨rfl, rfl⟩ := Prod.mk.inj hk
          -- the heartbeat that records is the one of the device
          obtain rfl := h.alone t u b _ ht hu hb rfl
          exact hrecord now rfl (Option.some.inj (ht.symm.trans hu))
        rw [execOption, find_exec_of_ne hk] at hr
        exact hready r hr
      | restoreBudget | applyStatus | install | succeed | revert | cancel | noProgress | timeOut =>
        contradiction
    · have hrevert : ∀ k phase now, w = .revert k phase now → phase = .installing ∨ phase = .restarting := by
        rintro k phase now rfl
        exact horigin
      exact ready_exec (Bool.eq_false_of_not_eq_true hoffer) hrevert
        (fun r0 hr0 => not_reopens hok hw ht hb hv hr0) hready r hr

theorem not_dueNow (hok : countSafe deviceId s (.beatNext t) = true)
    (ht : s.beats.get t = some (.granted deviceId v)) : s.dueNow (deviceId, v) s.clock = false := by
  unfold countSafe at hok
  rw [Bool.and_eq_true] at hok
  have hgranted := hok.2
  simp only [ht, bne_self_eq_false, Bool.false_or, Bool.not_eq_true'] at hgranted
  exact hgranted

/-- A heartbeat moves on. -/
theorem CountInv.move (h : CountInv deviceId s) (hok : countSafe deviceId s a = true)
    (hs : updateStep s a = some s') {b : Beat} (ht : s.beats.get t = some b)
    (hact : a = .beatNext t ∨ a = .beatFail t)
    (hbeats : s'.beats = s.beats.erase t ∨ ∃ c, s'.beats = s.beats.put t c)
    (hmoves : ∀ c, s'.beats.get t = some c → Moves s b c)
    (hnext : ∀ d v now, s'.beats.get t = some (.recording d v now) → a = .beatNext t)
    (hrecorded : ∀ d v now, b = .recording d v now → ∀ c, s'.beats.get t = some c → c.carries = none) :
    CountInv deviceId s' := by
  have hclock := (updateStep_does hs).clock
  have hothers : ∀ u, u ≠ t → s'.beats.get u = s.beats.get u := by
    intro u hu
    rcases hbeats with hbeats | ⟨c, hbeats⟩
    · rw [hbeats, Registry.get_erase_of_ne hu]
    · rw [hbeats, Registry.get_put_of_ne hu]
  have hback : ∀ u c, s'.beats.get u = some c → ∃ b, s.beats.get u = some b ∧ c.deviceId = b.deviceId := by
    intro u c hc
    by_cases hu : u = t
    · subst hu
      exact ⟨b, ht, (hmoves c hc).device⟩
    · rw [hothers u hu] at hc
      exact ⟨c, hc, rfl⟩
  refine ⟨?_, ?_, ?_⟩
  · intro u u' c c' hc hc' hd hd'
    obtain ⟨e, he, hce⟩ := hback u c hc
    obtain ⟨e', he', hce'⟩ := hback u' c' hc'
    exact h.alone u u' e e' he he' (hce.symm.trans hd) (hce'.symm.trans hd')
  · intro u device served now hc
    by_cases hu : u = t
    · subst hu
      rw [(hmoves _ hc).selecting device deviceId served now rfl]
      exact hclock
    · rw [hothers u hu] at hc
      exact le_trans (h.selected u device served now hc) hclock
  · intro u c v hc hd hv
    by_cases hu : u = t
    · subst hu
      have hmove := hmoves c hc
      have hb : b.deviceId = deviceId := hmove.device.symm.trans hd
      rcases hmove.carries v hv with hbv | ⟨device, now, hsel, hdue⟩
      · -- it carried the version before: the row is as ready as it was
        have hrow := h.ready_rows hok hs ht hb hbv (fun now _ hrec =>
          absurd ((hrecorded _ _ _ hrec c hc).symm.trans hv) (Option.some_ne_none v).symm)
        intro r hr
        obtain ⟨hbudget, hwaiting, -⟩ := hrow r hr
        refine ⟨hbudget, hwaiting, ?_⟩
        rintro d v' now rfl l hl
        obtain ⟨rfl, rfl⟩ := hmove.recording d v' now rfl
        obtain rfl : d = deviceId := hd
        obtain rfl := Option.some.inj hv
        -- the frame is written: its clock is not at the boundary
        obtain rfl := hnext d v' s.clock hc
        have hattempts : s'.attempts = s.attempts := by
          rw [(updateStep_does hs).attempts, UpdateServer.statement, ht]
          rfl
        rw [hattempts] at hr
        have hnot := not_dueNow hok ht
        rw [UpdateServer.dueNow, hr, Option.any_some, hl, beq_eq_false_iff_ne] at hnot
        have hle := (h.ready u _ v' ht rfl rfl r hr).waiting l hl
        have hne : l ≠ s.clock - updateOfferMinIntervalMs := fun hl => hnot (congrArg some hl)
        omega
      · -- it has just read the row
        rw [hb] at hsel hdue
        have hattempts : s'.attempts = s.attempts := by
          rw [(updateStep_does hs).attempts]
          rcases hact with rfl | rfl
          · rw [UpdateServer.statement, ht, hsel]
            rfl
          · rfl
        intro r hr
        rw [hattempts] at hr
        obtain ⟨hwaiting, hbudget⟩ := hdue r hr
        rw [hsel] at ht
        have hread := h.selected u device v now ht
        refine ⟨hbudget, ?_, ?_⟩
        · intro l hl
          have := hwaiting l hl
          omega
        · intro d v' now' hc'
          obtain ⟨hgranted, -⟩ := hmove.recording d v' now' hc'
          exact absurd (hsel.symm.trans hgranted) Beat.noConfusion
    · have hc' := hc
      rw [hothers u hu] at hc'
      refine h.ready_rows hok hs hc' hd hv fun now ha => ?_
      rcases hact with rfl | rfl
      · exact absurd (UpdateAction.beatNext.inj ha).symm hu
      · exact UpdateAction.noConfusion ha

theorem updateStep_beat (hs : updateStep s (.beat t d reported) = some s') :
    ∃ device r, s.beats.get t = none ∧ s.setBeat t (.loaded device d r) = s' := by
  simp only [updateStep] at hs
  split at hs
  · split at hs
    · rename_i hnone
      exact ⟨_, _, Option.isNone_iff_eq_none.mp hnone, Option.some.inj hs⟩
    · contradiction
  · contradiction

theorem CountInv.start (h : CountInv deviceId s) (hok : countSafe deviceId s (.beat t d reported) = true)
    (hs : updateStep s (.beat t d reported) = some s') : CountInv deviceId s' := by
  obtain ⟨device, r, -, rfl⟩ := updateStep_beat hs
  have hfree : d = deviceId → ∀ u c, s.beats.get u = some c → c.deviceId ≠ deviceId := by
    rintro rfl u c hc hd
    unfold countSafe at hok
    rw [Bool.and_eq_true] at hok
    have hother := hok.2
    dsimp only at hother
    rw [bne_self_eq_false, Bool.false_or, Bool.not_eq_true', ← Bool.not_eq_true, Registry.any_eq_true] at hother
    exact hother ⟨u, c, hc, beq_iff_eq.mpr hd⟩
  refine ⟨?_, ?_, ?_⟩
  · intro u u' b c hb hc hd hd'
    rcases Registry.get_put_eq_some hb with ⟨rfl, rfl⟩ | ⟨hu, hb⟩
    · rcases Registry.get_put_eq_some hc with ⟨rfl, -⟩ | ⟨-, hc⟩
      · rfl
      · exact absurd hd' (hfree hd u' c hc)
    · rcases Registry.get_put_eq_some hc with ⟨-, rfl⟩ | ⟨-, hc⟩
      · exact absurd hd (hfree hd' u b hb)
      · exact h.alone u u' b c hb hc hd hd'
  · intro u device served now hc
    rcases Registry.get_put_eq_some hc with ⟨-, hc⟩ | ⟨-, hc⟩
    · exact Beat.noConfusion hc
    · exact h.selected u device served now hc
  · intro u c v hc hd hv
    rcases Registry.get_put_eq_some hc with ⟨-, rfl⟩ | ⟨-, hc⟩
    · exact absurd hv.symm (Option.some_ne_none v)
    · exact h.ready u c v hc hd hv

theorem countInv_step (h : CountInv deviceId s) (hok : countSafe deviceId s a = true)
    (hs : updateStep s a = some s') : CountInv deviceId s' := by
  cases a with
  | beatNext t =>
    obtain ⟨b, ht, hb⟩ := Option.bind_eq_some_iff.mp hs
    refine h.move hok hs ht (.inl rfl) (beats_beatNext hb) (fun c hc => moves_beatNext hb hc)
      (fun _ _ _ _ => rfl) ?_
    rintro d v now rfl c hc
    rw [← Option.some.inj hb] at hc
    rw [← eq_of_get_put hc]
    rfl
  | beatFail t =>
    obtain ⟨b, ht, hb⟩ := Option.bind_eq_some_iff.mp hs
    refine h.move hok hs ht (.inr rfl) (beats_beatFail hb) (fun c hc => moves_beatFail hb hc) ?_ ?_
    · intro d v now hc
      obtain ⟨rfl, -⟩ := (moves_beatFail hb hc).recording d v now rfl
      rw [← Option.some.inj hb] at hc
      exact (not_get_erase hc).elim
    · rintro d v now rfl c hc
      rw [← Option.some.inj hb] at hc
      rw [← eq_of_get_put hc]
      rfl
  | beat t d reported => exact h.start hok hs
  | tick | serve | setDevice | reconcile | request | status | updating | cleanup | cancel | next | selectOpen
  | abort =>
    have hdoes := updateStep_does hs
    have hbeats := (hdoes.slots rfl).1
    refine ⟨?_, ?_, ?_⟩
    · rw [hbeats]
      exact h.alone
    · intro t device served now hc
      rw [hbeats] at hc
      exact le_trans (h.selected t device served now hc) hdoes.clock
    · intro t b v hc hd hv
      rw [hbeats] at hc
      exact h.ready_rows hok hs hc hd hv fun _ => UpdateAction.noConfusion

theorem beat_stays {b : Beat} (ht : s.beats.get t = some b) (hnext : a ≠ .beatNext t) (hfail : a ≠ .beatFail t)
    (hs : updateStep s a = some s') : s'.beats.get t = some b := by
  have hother : ∀ u, u ≠ t → (s'.beats = s.beats.erase u ∨ ∃ c, s'.beats = s.beats.put u c) →
      s'.beats.get t = some b := by
    rintro u hu (hbeats | ⟨c, hbeats⟩)
    · rw [hbeats, Registry.get_erase_of_ne hu.symm, ht]
    · rw [hbeats, Registry.get_put_of_ne hu.symm, ht]
  cases a with
  | beatNext u =>
    obtain ⟨c, -, hc⟩ := Option.bind_eq_some_iff.mp hs
    exact hother u (fun hu => hnext (congrArg _ hu)) (beats_beatNext hc)
  | beatFail u =>
    obtain ⟨c, -, hc⟩ := Option.bind_eq_some_iff.mp hs
    exact hother u (fun hu => hfail (congrArg _ hu)) (beats_beatFail hc)
  | beat u d v =>
    obtain ⟨device, r, hnone, rfl⟩ := updateStep_beat hs
    refine hother u ?_ (.inr ⟨_, rfl⟩)
    rintro rfl
    exact absurd (hnone.symm.trans ht) (Option.some_ne_none b).symm
  | tick | serve | setDevice | reconcile | request | status | updating | cleanup | cancel | next | selectOpen
  | abort =>
    rw [((updateStep_does hs).slots rfl).1]
    exact ht

/-- The frame of a heartbeat has been written: its offer is about to be recorded, or has been counted. -/
def Counted (t deviceId : Nat) (version : List Char) (now : Int) (s : UpdateServer) : Prop :=
  s.beats.get t = some (.recording deviceId version now) ∨ .offered (deviceId, version) now ∈ s.log

theorem counted_step {now : Int} (h : CountInv deviceId s) (hok : countSafe deviceId s a = true)
    (hs : updateStep s a = some s') (hcounted : Counted t deviceId v now s) : Counted t deviceId v now s' := by
  rcases hcounted with ht | hlog
  · by_cases hnext : a = .beatNext t
    · subst hnext
      obtain ⟨b, hb, hs⟩ := Option.bind_eq_some_iff.mp hs
      obtain rfl := Option.some.inj (hb.symm.trans ht)
      have hcounts : s.countsOffer deviceId v now = true := by
        refine countsOffer_iff.mpr ?_
        intro r hr
        obtain ⟨hbudget, -, hrecording⟩ := h.ready t _ v ht rfl rfl r hr
        have hlast := hrecording deviceId v now rfl
        refine ⟨⟨fun l hl => le_of_lt (hlast l hl), hbudget⟩, ?_⟩
        intro hl
        exact lt_irrefl _ (hlast _ hl)
      rw [UpdateServer.countsOffer] at hcounts
      rw [← Option.some.inj hs]
      refine .inr (List.mem_append_right s.log ?_)
      show .offered (deviceId, v) now ∈ (AttemptWrite.recordOffer deviceId v now).events s.attempts
      rw [AttemptWrite.events, if_pos hcounts]
      exact List.mem_singleton_self _
    · by_cases hfail : a = .beatFail t
      · subst hfail
        unfold countSafe at hok
        rw [Bool.and_eq_true] at hok
        have hother := hok.2
        simp only [ht, bne_self_eq_false] at hother
        contradiction
      · exact .inl (beat_stays ht hnext hfail hs)
  · refine .inr ?_
    rcases updateStep_writes hs with ⟨-, hsame⟩ | ⟨w, -, hsame, -⟩
    · rw [hsame]
      exact hlog
    · rw [hsame]
      exact List.mem_append_left _ hlog

end invariant

/-- What is advertised at a clock counts at that clock, except ten minutes after the last counted offer; and in
every run under the condition each version that a frame to the device carries is about to be recorded or
counted. -/
theorem offers_counted (s : UpdateServer) (device : UpdateDevice) (deviceId : Nat) (reported : List Char)
    (now : Int) :
    ((∀ version, s.resolveAdvertisedVersion device deviceId reported now = some version →
        s.countsOffer deviceId version now = true) ↔
      ¬ ∃ served a, s.AtTenMinutes device deviceId reported now served a) ∧
    ∀ s₀ : UpdateServer, (∀ t b, s₀.beats.get t = some b → b.deviceId ≠ deviceId) →
      ∀ (pre post : List UpdateAction) (t : Nat) (version : List Char) (s₁ s₂ : UpdateServer),
        StepsMeet updateStep (fun s a => countSafe deviceId s a) s₀ (pre ++ .beatNext t :: post) →
        run updateStep s₀ pre = some s₁ → s₁.beats.get t = some (.granted deviceId version) →
        run updateStep s₁ (.beatNext t :: post) = some s₂ → Counted t deviceId version s₁.clock s₂ := by
  refine ⟨resolve_counts_iff, ?_⟩
  intro s₀ hfree pre post t version s₁ s₃ hok hpre ht hpost
  obtain ⟨hok₀, hok⟩ := stepsMeet_append.mp hok
  have hstart : CountInv deviceId s₀ := by
    refine ⟨fun t _ b _ hb _ hd => absurd hd (hfree t b hb), ?_, fun t b _ hb hd => absurd hd (hfree t b hb)⟩
    exact fun t _ _ _ hb => absurd rfl (hfree t _ hb)
  have hinv : CountInv deviceId s₁ :=
    run_invariant (fun _ _ _ h hok hs => countInv_step h hok hs) hstart hok₀ hpre
  obtain ⟨s₂, hs₂, hpost⟩ := run_cons.mp hpost
  obtain ⟨hok₁, hok₂⟩ := hok s₁ hpre
  have hwritten : Counted t deviceId version s₁.clock s₂ := by
    have heq : s₁.setBeat t (.recording deviceId version s₁.clock) = s₂ := by
      rw [updateStep, ht] at hs₂
      exact Option.some.inj hs₂
    rw [← heq]
    exact .inl Registry.get_put_self
  have hinv₂ : CountInv deviceId s₂ := countInv_step hinv hok₁ hs₂
  have hrun : CountInv deviceId s₃ ∧ Counted t deviceId version s₁.clock s₃ := by
    refine run_invariant (P := fun s => CountInv deviceId s ∧ Counted t deviceId version s₁.clock s) ?_
      ⟨hinv₂, hwritten⟩ (hok₂ s₂ hs₂) hpost
    exact fun _ _ _ h hok hs => ⟨countInv_step h.1 hok hs, counted_step h.1 hok hs h.2⟩
  exact hrun.2

/-- An offer at the start, and the next heartbeat of the agent at `clock`, up to its frame. -/
def nextFrame (clock : Int) : List UpdateAction :=
  offerTo 1 0 ++ .tick clock :: .beat 2 0 [] :: List.replicate 5 (.beatNext 2)

/-- A millisecond after the ten minutes the second frame is counted. -/
theorem offers_counted_later : ∃ s₁ s, run updateStep (updateFleet 1) (nextFrame 600001) = some s₁ ∧
    s₁.beats.get 2 = some (.granted 0 newVersion) ∧
    run updateStep s₁ (.beatNext 2 :: [.beatNext 2, .beatNext 2]) = some s ∧
    Counted 2 0 newVersion 600001 s := by
  have hpre : (run updateStep (updateFleet 1) (nextFrame 600001)).map
      (fun s => (s.beats.get 2, s.clock, (run updateStep s (.beatNext 2 :: [.beatNext 2, .beatNext 2])).isSome)) =
        some (some (.granted 0 newVersion), 600001, true) := by decide +kernel
  obtain ⟨s₁, hs₁, hgranted⟩ := Option.map_eq_some_iff.mp hpre
  obtain ⟨hgranted, hrest⟩ := Prod.mk.inj hgranted
  obtain ⟨hclock, hpost⟩ := Prod.mk.inj hrest
  obtain ⟨s, hs⟩ := Option.isSome_iff_exists.mp hpost
  refine ⟨s₁, s, hs₁, hgranted, hs, ?_⟩
  rw [← hclock]
  refine (offers_counted s₁ oldAgent 0 [] 0).2 (updateFleet 1) ?_ (nextFrame 600001)
    [.beatNext 2, .beatNext 2] 2 newVersion s₁ s (by decide +kernel) hs₁ hgranted hs
  intro t b hb
  contradiction

/-- Ten minutes after the last counted offer, to the millisecond, the version is advertised and its offer does
not count; the frame of a heartbeat that is alone goes uncounted. -/
theorem offers_uncounted :
    (¬ ∀ (s : UpdateServer) (device : UpdateDevice) (deviceId : Nat) (reported : List Char) (now : Int)
      (version : List Char), s.resolveAdvertisedVersion device deviceId reported now = some version →
        s.countsOffer deviceId version now = true) ∧
    (run updateStep (updateFleet 1) (nextFrame 600000)).map (fun s => s.beats.get 2) =
      some (some (.granted 0 newVersion)) ∧
    (run updateStep (updateFleet 1) (nextFrame 600000 ++ List.replicate 3 (.beatNext 2))).map
      (fun s => (s.beats.get 2, offers s.log)) = some (none, [((0, newVersion), 0)]) := by
  refine ⟨?_, by decide +kernel, by decide +kernel⟩
  intro h
  have hlast : (run updateStep (updateFleet 1) (offerTo 1 0)).map (fun s =>
      (s.resolveAdvertisedVersion oldAgent 0 ['1', '.', '0', '.', '0'] 600000,
        s.countsOffer 0 newVersion 600000)) = some (some newVersion, false) := by decide +kernel
  obtain ⟨s, -, hdecisions⟩ := Option.map_eq_some_iff.mp hlast
  obtain ⟨hresolve, hcounts⟩ := Prod.mk.inj hdecisions
  have hcounted := h s oldAgent 0 _ 600000 newVersion hresolve
  rw [hcounts] at hcounted
  contradiction

end Obliguard.Server

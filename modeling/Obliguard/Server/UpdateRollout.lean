import Obliguard.Server.UpdateBudget

/-!
# The rollout cap

At most 25 offers are counted in any minute, provided that the count of the window is still right when
`reserveRolloutSlot` uses it, and that an offer is counted while its device holds a slot of its own
(`paced`; `rollout_paced`). The code ensures neither: the count is for the clock that the heartbeat read
before it waited for `slotLock`, and may be old by the time it is used; a slot is purged after fifteen
seconds whether its offer is still to come or not. `rollout_overshoot` is a run with 26 offers in a
millisecond.

The invariant counts, for every minute, the offers in it together with the slots that may still become
offers in it: those taken before its end.
-/

namespace Obliguard.Server

open Runs

/-! ## The condition -/

/-- No offer is newer than the clock of the heartbeat, and none came since the count; an offer is
counted while its device holds a slot, taken by then, that no other offer of it has used. -/
def paced (s : UpdateServer) : UpdateAction → Bool
  | .beatNext t => match s.beats.get t with
    | some (.counted _ _ now offers) =>
      s.attempts.rows.all (fun r => r.lastOfferedAt.all (· ≤ now)) &&
        decide (countRolloutOffersInWindow s.attempts now ≤ offers)
    | some (.recording deviceId version now) =>
      !(AttemptWrite.recordOffer deviceId version now).hits s.attempts (deviceId, version) ||
        (s.reservations.any (fun r => r.deviceId == deviceId && decide (r.since ≤ now)) &&
          !s.beats.any (· == .releasing deviceId))
    | _ => true
  | _ => true

/-! ## Offers and slots of a minute -/

/-- The offers of the minute after `x`. -/
def offersAfter (log : List AttemptEvent) (x : Int) : Nat :=
  (offers log).countP fun o => decide (x < o.2 ∧ o.2 ≤ x + updateRolloutWindowMs)

/-- An offer of the device has been counted and its slot is still to be released. -/
def UpdateServer.used (s : UpdateServer) (deviceId : Nat) : Bool :=
  s.beats.any (· == .releasing deviceId)

/-- The slots taken by `y` whose offers are still to be counted. -/
def UpdateServer.slots (s : UpdateServer) (y : Int) : Nat :=
  s.reservations.countP fun r => decide (r.since ≤ y) && !s.used r.deviceId

theorem used_iff {s : UpdateServer} {d : Nat} :
    s.used d = true ↔ ∃ t, s.beats.get t = some (.releasing d) := by
  rw [UpdateServer.used, Registry.any_eq_true]
  constructor
  · rintro ⟨t, b, hb, heq⟩
    rw [beq_iff_eq] at heq
    exact ⟨t, heq ▸ hb⟩
  · rintro ⟨t, ht⟩
    exact ⟨t, _, ht, beq_self_eq_true _⟩

theorem slots_le {s s' : UpdateServer} {f : Reservation → Reservation} {l : List Reservation}
    (hl : l.Sublist s.reservations) (hres : s'.reservations = l.map f)
    (hf : ∀ r, (f r).deviceId = r.deviceId ∧ (f r).since = r.since)
    (hused : ∀ r ∈ l, s.used r.deviceId = true → s'.used r.deviceId = true) (y : Int) :
    s'.slots y ≤ s.slots y := by
  rw [UpdateServer.slots, hres, List.countP_map]
  refine Nat.le_trans (List.countP_mono_left ?_) hl.countP_le
  intro r hr hcount
  simp only [Function.comp_apply, (hf r).1, (hf r).2, Bool.and_eq_true, Bool.not_eq_true'] at hcount
  rw [Bool.and_eq_true, Bool.not_eq_true']
  refine ⟨hcount.1, ?_⟩
  by_contra hne
  rw [hused r hr (Bool.eq_true_of_not_eq_false hne)] at hcount
  exact Bool.noConfusion hcount.2

theorem slots_le_of_eq {s s' : UpdateServer} (hres : s'.reservations = s.reservations)
    (hused : ∀ d, s.used d = true → s'.used d = true) (y : Int) : s'.slots y ≤ s.slots y :=
  slots_le (f := id) (List.Sublist.refl _) (by rw [hres, List.map_id]) (fun _ => ⟨rfl, rfl⟩)
    (fun r _ => hused r.deviceId) y

theorem used_put {s s' : UpdateServer} {t : Nat} {b b' : Beat} (ht : s.beats.get t = some b)
    (hb : ∀ d, b ≠ .releasing d) (hbeats : s'.beats = s.beats.put t b') (d : Nat)
    (h : s.used d = true) : s'.used d = true := by
  obtain ⟨u, hu⟩ := used_iff.mp h
  have hut : u ≠ t := by
    rintro rfl
    rw [ht] at hu
    exact hb d (Option.some.inj hu)
  refine used_iff.mpr ⟨u, ?_⟩
  rw [hbeats, Registry.get_put_of_ne hut]
  exact hu

theorem used_erase {s s' : UpdateServer} {t : Nat} {b : Beat} (ht : s.beats.get t = some b)
    (hb : ∀ d, b ≠ .releasing d) (hbeats : s'.beats = s.beats.erase t) (d : Nat)
    (h : s.used d = true) : s'.used d = true := by
  obtain ⟨u, hu⟩ := used_iff.mp h
  have hut : u ≠ t := by
    rintro rfl
    rw [ht] at hu
    exact hb d (Option.some.inj hu)
  refine used_iff.mpr ⟨u, ?_⟩
  rw [hbeats, Registry.get_erase_of_ne hut]
  exact hu

/-- The offers of a minute that ends at or after a clock that no offer is beyond are all in the
window of that clock. -/
theorem offersAfter_le_count {t : Keyed attemptKey} {log : List AttemptEvent} {now x : Int}
    (h : OfferInv t log) (hnow : ∀ r ∈ t.rows, ∀ l, r.lastOfferedAt = some l → l ≤ now)
    (hx : now ≤ x + updateRolloutWindowMs) :
    offersAfter log x ≤ countRolloutOffersInWindow t now := by
  rw [offersAfter, List.countP_eq_length_filter]
  generalize hrecent : (offers log).filter (fun o =>
    decide (x < o.2 ∧ o.2 ≤ x + updateRolloutWindowMs)) = recent
  have hmem : ∀ o ∈ recent, o ∈ offers log ∧ x < o.2 ∧ o.2 ≤ x + updateRolloutWindowMs := by
    intro o ho
    rw [← hrecent, List.mem_filter, decide_eq_true_eq] at ho
    exact ho
  have hnodup : (recent.map (·.1)).Nodup := by
    rw [List.Nodup, List.pairwise_map]
    have hspaced : recent.Pairwise fun o o' => o.1 = o'.1 → o.2 + updateOfferMinIntervalMs < o'.2 := by
      rw [← hrecent]
      exact h.spaced.sublist List.filter_sublist
    refine hspaced.imp_of_mem ?_
    intro o o' ho ho' hlt hkey
    have := hlt hkey
    have := (hmem o ho).2
    have := (hmem o' ho').2
    simp only [updateOfferMinIntervalMs, updateRolloutWindowMs] at *
    omega
  rw [← List.length_map (f := (·.1))]
  refine Keyed.length_le_filter hnodup ?_
  intro k hk
  obtain ⟨o, ho, rfl⟩ := List.mem_map.mp hk
  obtain ⟨hoffer, hlow, -⟩ := hmem o ho
  obtain ⟨r, hr, l, hl, hle⟩ := h.last o hoffer
  refine ⟨r, hr, ?_⟩
  have := hnow r (Keyed.find_eq_some.mp hr).1 l hl
  rw [hl, Option.any_some, decide_eq_true_eq]
  omega

/-! ## The invariant -/

/-- In every minute, the offers and the slots that may become offers in it are within the cap. -/
structure RolloutInv (s : UpdateServer) : Prop where
  attempts : OfferInv s.attempts s.log
  window : ∀ x, offersAfter s.log x + s.slots (x + updateRolloutWindowMs) ≤ updateRolloutMaxPerWindow

theorem RolloutInv.quiet {s s' : UpdateServer} {a : UpdateAction} (h : RolloutInv s)
    (hs : updateStep s a = some s')
    (hquiet : ∀ t d v now, a = .beatNext t → s.beats.get t ≠ some (.recording d v now))
    (hslots : ∀ y, s'.slots y ≤ s.slots y) : RolloutInv s' := by
  refine ⟨offerInv_step h.attempts hs, ?_⟩
  intro x
  have hsame : offers s'.log = offers s.log := by
    rcases updateStep_writes hs with ⟨-, hlog⟩ | ⟨w, -, hlog, horigin⟩
    · rw [hlog]
    · have hw : w.isOffer = false := by
        cases w with
        | recordOffer d v now =>
          obtain ⟨t, ha, ht⟩ := horigin
          exact absurd ht (hquiet t d v now ha)
        | restoreBudget | applyStatus | install | succeed | revert | cancel | noProgress | timeOut =>
          rfl
      rw [hlog, offers_append, offers_events hw, List.append_nil]
  have hwindow := h.window x
  have hle := hslots (x + updateRolloutWindowMs)
  rw [offersAfter] at hwindow ⊢
  rw [hsame]
  omega

section beats
variable {s s' : UpdateServer} {t deviceId : Nat} {version : List Char} {now : Int}

theorem rolloutInv_move (h : RolloutInv s) {b : Beat} {a : UpdateAction}
    (hs : updateStep s a = some s')
    (hquiet : ∀ t d v now, a = .beatNext t → s.beats.get t ≠ some (.recording d v now))
    (ht : s.beats.get t = some b) (hb : ∀ d, b ≠ .releasing d)
    (hres : s'.reservations = s.reservations)
    (hbeats : s'.beats = s.beats.erase t ∨ ∃ b', s'.beats = s.beats.put t b') : RolloutInv s' := by
  refine h.quiet hs hquiet (slots_le_of_eq hres ?_)
  rcases hbeats with hbeats | ⟨b', hbeats⟩
  · exact used_erase ht hb hbeats
  · exact used_put ht hb hbeats

theorem advertise_spec (s : UpdateServer) (t : Nat) (device : UpdateDevice) (deviceId : Nat)
    (served : List Char) (now : Int) :
    (s.advertise t device deviceId served now).reservations = s.reservations ∧
      ((s.advertise t device deviceId served now).beats = s.beats.erase t ∨
        ∃ b', (s.advertise t device deviceId served now).beats = s.beats.put t b') := by
  unfold UpdateServer.advertise
  split
  · exact ⟨rfl, .inr ⟨_, rfl⟩⟩
  · split
    · exact ⟨rfl, .inl rfl⟩
    · split
      · exact ⟨rfl, .inl rfl⟩
      · split
        · exact ⟨rfl, .inr ⟨_, rfl⟩⟩
        · exact ⟨rfl, .inr ⟨_, rfl⟩⟩

theorem reserve_spec (s : UpdateServer) (t deviceId : Nat) (version : List Char) (now : Int) :
    (∃ f : Reservation → Reservation, (∀ r, (f r).deviceId = r.deviceId ∧ (f r).since = r.since) ∧
      (s.reserve t deviceId version now).reservations =
        (purgeReservations s.reservations now).map f) ∧
    ((s.reserve t deviceId version now).beats = s.beats.erase t ∨
      ∃ b', (s.reserve t deviceId version now).beats = s.beats.put t b') := by
  unfold UpdateServer.reserve
  dsimp only
  split
  · refine ⟨⟨_, ?_, rfl⟩, .inr ⟨_, rfl⟩⟩
    intro r
    split
    · exact ⟨rfl, rfl⟩
    · exact ⟨rfl, rfl⟩
  · split
    · exact ⟨⟨id, fun _ => ⟨rfl, rfl⟩, (List.map_id _).symm⟩, .inl rfl⟩
    · exact ⟨⟨id, fun _ => ⟨rfl, rfl⟩, (List.map_id _).symm⟩, .inr ⟨_, rfl⟩⟩

theorem rolloutInv_reserve (h : RolloutInv s) (ht : s.beats.get t = some (.queued deviceId version now))
    (hs : updateStep s (.beatNext t) = some s')
    (heq : s' = s.reserve t deviceId version now) : RolloutInv s' := by
  obtain ⟨⟨f, hf, hres⟩, hbeats⟩ := reserve_spec s t deviceId version now
  rw [← heq] at hres hbeats
  refine h.quiet hs ?_ (slots_le List.filter_sublist hres hf fun r _ => ?_)
  · rintro u d v now' hu
    obtain rfl := UpdateAction.beatNext.inj hu
    rw [ht]
    exact fun hne => Beat.noConfusion (Option.some.inj hne)
  · rcases hbeats with hbeats | ⟨b', hbeats⟩
    · exact used_erase ht (fun _ => Beat.noConfusion) hbeats r.deviceId
    · exact used_put ht (fun _ => Beat.noConfusion) hbeats r.deviceId

/-- The slot is taken: the count is still right, and the reservations are added to it. -/
theorem rolloutInv_grant (h : RolloutInv s) {counted : Nat}
    (ht : s.beats.get t = some (.counted deviceId version now counted))
    (hok : paced s (.beatNext t) = true) (hroom : rolloutWindowHasRoom counted s.reservations.length)
    (hs : updateStep s (.beatNext t) = some s') (hlog : s'.log = s.log)
    (hbeats : s'.beats = s.beats.put t (.granted deviceId version))
    (hres : s'.reservations =
      s.reservations.filter (·.deviceId ≠ deviceId) ++ [⟨deviceId, now, now⟩]) : RolloutInv s' := by
  simp only [paced, ht, Bool.and_eq_true, List.all_eq_true, decide_eq_true_eq] at hok
  obtain ⟨hnow, hcount⟩ := hok
  have hnow : ∀ r ∈ s.attempts.rows, ∀ l, r.lastOfferedAt = some l → l ≤ now := by
    intro r hr l hl
    have hall := hnow r hr
    rw [hl, Option.all_some, decide_eq_true_eq] at hall
    exact hall
  refine ⟨offerInv_step h.attempts hs, ?_⟩
  intro x
  rw [hlog]
  by_cases hx : now ≤ x + updateRolloutWindowMs
  · -- the minute ends after the clock: all its offers were counted
    have hoffers := offersAfter_le_count h.attempts hnow hx
    have hslots : s'.slots (x + updateRolloutWindowMs) ≤ s.reservations.length + 1 := by
      refine Nat.le_trans List.countP_le_length ?_
      rw [hres, List.length_append, List.length_singleton]
      have := List.length_filter_le (fun r : Reservation => decide (r.deviceId ≠ deviceId))
        s.reservations
      omega
    simp only [rolloutWindowHasRoom, decide_eq_true_eq] at hroom
    omega
  · -- it ends before: the new slot is not for it
    have hslots : s'.slots (x + updateRolloutWindowMs) ≤ s.slots (x + updateRolloutWindowMs) := by
      rw [UpdateServer.slots, hres, List.countP_append, List.countP_singleton, if_neg, Nat.add_zero]
      · refine Nat.le_trans (List.countP_mono_left ?_) List.filter_sublist.countP_le
        intro r _ hr
        rw [Bool.and_eq_true, Bool.not_eq_true'] at hr ⊢
        refine ⟨hr.1, ?_⟩
        by_contra hne
        have hused := used_put ht (fun _ => Beat.noConfusion) hbeats r.deviceId
          (Bool.eq_true_of_not_eq_false hne)
        rw [hused] at hr
        exact Bool.noConfusion hr.2
      · simp [hx]
    have := h.window x
    omega

theorem countP_succ_le {α : Type} {p q : α → Bool} {l : List α} (h : ∀ a ∈ l, p a = true → q a = true)
    {b : α} (hb : b ∈ l) (hp : p b = false) (hq : q b = true) : l.countP p + 1 ≤ l.countP q := by
  obtain ⟨pre, post, rfl⟩ := List.append_of_mem hb
  have hpre := List.countP_mono_left (l := pre) fun a ha => h a (by simp [ha])
  have hpost := List.countP_mono_left (l := post) fun a ha => h a (by simp [ha])
  rw [List.countP_append, List.countP_append, List.countP_cons, List.countP_cons, hp, hq]
  simp only [Bool.false_eq_true, if_false, if_true]
  omega

theorem rolloutInv_record (h : RolloutInv s)
    (ht : s.beats.get t = some (.recording deviceId version now))
    (hok : paced s (.beatNext t) = true) (hs : updateStep s (.beatNext t) = some s')
    (heq : s' = (s.setBeat t (.releasing deviceId)).write (.recordOffer deviceId version now)) :
    RolloutInv s' := by
  have hused : ∀ d, s.used d = true → s'.used d = true :=
    used_put ht (fun _ => Beat.noConfusion) (by rw [heq]; rfl)
  have hslots : ∀ y, s'.slots y ≤ s.slots y := slots_le_of_eq (by rw [heq]; rfl) hused
  have hlog : s'.log = s.log ++
      (AttemptWrite.recordOffer deviceId version now).events s.attempts := by
    rw [heq]
    rfl
  refine ⟨offerInv_step h.attempts hs, ?_⟩
  intro x
  have hwindow := h.window x
  have hle := hslots (x + updateRolloutWindowMs)
  rw [hlog, offersAfter, offers_append, List.countP_append, AttemptWrite.events, ← offersAfter]
  by_cases hhits : (AttemptWrite.recordOffer deviceId version now).hits s.attempts
      (deviceId, version) = true
  · rw [if_pos hhits]
    have hone : offers [.offered (deviceId, version) now] = [((deviceId, version), now)] := rfl
    rw [hone, List.countP_singleton]
    by_cases hx : x < now ∧ now ≤ x + updateRolloutWindowMs
    · rw [if_pos (decide_eq_true hx)]
      simp only [paced, ht, Bool.or_eq_true, Bool.and_eq_true, List.any_eq_true, hhits,
        Bool.not_true, Bool.false_eq_true, false_or, beq_iff_eq, decide_eq_true_eq,
        Bool.not_eq_true'] at hok
      obtain ⟨⟨r, hr, hdevice, hsince⟩, hfree⟩ := hok
      have hless : s'.slots (x + updateRolloutWindowMs) + 1 ≤ s.slots (x + updateRolloutWindowMs) := by
        have hres : s'.reservations = s.reservations := by
          rw [heq]
          rfl
        rw [UpdateServer.slots, hres]
        refine countP_succ_le ?_ hr ?_ ?_
        · intro r' _ hcount
          rw [Bool.and_eq_true, Bool.not_eq_true'] at hcount ⊢
          refine ⟨hcount.1, ?_⟩
          by_contra hne
          rw [hused r'.deviceId (Bool.eq_true_of_not_eq_false hne)] at hcount
          exact Bool.noConfusion hcount.2
        · have hdue : s'.used r.deviceId = true := by
            refine used_iff.mpr ⟨t, ?_⟩
            rw [heq, hdevice]
            exact Registry.get_put_self
          rw [hdue, Bool.not_true, Bool.and_false]
        · rw [Bool.and_eq_true, decide_eq_true_eq, Bool.not_eq_true', hdevice]
          exact ⟨by omega, hfree⟩
      omega
    · rw [if_neg (by simpa using hx)]
      omega
  · rw [if_neg hhits]
    show _ + 0 + _ ≤ _
    omega

theorem rolloutInv_release (h : RolloutInv s) (ht : s.beats.get t = some (.releasing deviceId))
    (hs : updateStep s (.beatNext t) = some s') (hbeats : s'.beats = s.beats.erase t)
    (hres : s'.reservations = s.reservations.filter (·.deviceId ≠ deviceId)) : RolloutInv s' := by
  refine h.quiet hs ?_ (slots_le (f := id) List.filter_sublist (by rw [hres, List.map_id])
    (fun _ => ⟨rfl, rfl⟩) ?_)
  · rintro u d v now' hu
    obtain rfl := UpdateAction.beatNext.inj hu
    rw [ht]
    exact fun hne => Beat.noConfusion (Option.some.inj hne)
  · intro r hr hused
    obtain ⟨u, hu⟩ := used_iff.mp hused
    have hne : r.deviceId ≠ deviceId := by simpa using (List.mem_filter.mp hr).2
    have hut : u ≠ t := by
      rintro rfl
      rw [ht] at hu
      exact hne (Beat.releasing.inj (Option.some.inj hu)).symm
    refine used_iff.mpr ⟨u, ?_⟩
    rw [hbeats, Registry.get_erase_of_ne hut]
    exact hu

theorem beats_beatNext {b : Beat} (h : beatNext s t b = some s') :
    s'.beats = s.beats.erase t ∨ ∃ b', s'.beats = s.beats.put t b' := by
  cases b with
  | loaded device d reported =>
    simp only [beatNext] at h
    split at h
    · split at h
      · rw [← Option.some.inj h]
        exact .inr ⟨_, rfl⟩
      · rw [← Option.some.inj h]
        exact .inl rfl
    · rw [← Option.some.inj h]
      exact .inl rfl
  | selecting device d served now =>
    rw [← Option.some.inj h]
    exact (advertise_spec s t device d served now).2
  | abandoning device d served now =>
    simp only [beatNext] at h
    split at h
    · rw [← Option.some.inj h]
      exact .inr ⟨_, rfl⟩
    · rw [← Option.some.inj h]
      exact .inl rfl
  | queued d v now =>
    simp only [beatNext] at h
    split at h
    · rw [← Option.some.inj h]
      exact (reserve_spec s t d v now).2
    · contradiction
  | counted d v now n =>
    simp only [beatNext] at h
    split at h
    · rw [← Option.some.inj h]
      exact .inr ⟨_, rfl⟩
    · rw [← Option.some.inj h]
      exact .inl rfl
  | clearing | releasing =>
    rw [← Option.some.inj h]
    exact .inl rfl
  | counting | granted | recording =>
    rw [← Option.some.inj h]
    exact .inr ⟨_, rfl⟩

theorem beats_beatFail {b : Beat} (h : beatFail s t b = some s') :
    s'.beats = s.beats.erase t ∨ ∃ b', s'.beats = s.beats.put t b' := by
  cases b with
  | loaded | queued | counted | releasing => contradiction
  | selecting | abandoning | clearing | granted | counting =>
    rw [← Option.some.inj h]
    exact .inl rfl
  | recording =>
    rw [← Option.some.inj h]
    exact .inr ⟨_, rfl⟩

theorem rolloutInv_beatNext (h : RolloutInv s) {b : Beat} (ht : s.beats.get t = some b)
    (hok : paced s (.beatNext t) = true) (hs : updateStep s (.beatNext t) = some s')
    (hb : beatNext s t b = some s') : RolloutInv s' := by
  -- unless the heartbeat records its offer or releases its slot, it only moves on
  have hmove : (∀ d v now, b ≠ .recording d v now) → (∀ d, b ≠ .releasing d) →
      s'.reservations = s.reservations → RolloutInv s' := by
    intro hrecording hreleasing hres
    refine rolloutInv_move h hs ?_ ht hreleasing hres (beats_beatNext hb)
    intro u d v now hu
    obtain rfl := UpdateAction.beatNext.inj hu
    rw [ht]
    exact fun hne => hrecording d v now (Option.some.inj hne)
  cases b with
  | loaded device d reported =>
    apply hmove (fun _ _ _ => Beat.noConfusion) (fun _ => Beat.noConfusion)
    simp only [beatNext] at hb
    split at hb
    · split at hb
      · rw [← Option.some.inj hb]
        rfl
      · rw [← Option.some.inj hb]
        rfl
    · rw [← Option.some.inj hb]
      rfl
  | selecting device d served now =>
    have hres := (advertise_spec s t device d served now).1
    rw [Option.some.inj hb] at hres
    exact hmove (fun _ _ _ => Beat.noConfusion) (fun _ => Beat.noConfusion) hres
  | abandoning device d served now =>
    apply hmove (fun _ _ _ => Beat.noConfusion) (fun _ => Beat.noConfusion)
    simp only [beatNext] at hb
    split at hb
    · rw [← Option.some.inj hb]
      rfl
    · rw [← Option.some.inj hb]
      rfl
  | clearing | counting | granted =>
    rw [← Option.some.inj hb] at hmove ⊢
    exact hmove (fun _ _ _ => Beat.noConfusion) (fun _ => Beat.noConfusion) rfl
  | queued d v now =>
    simp only [beatNext] at hb
    split at hb
    · exact rolloutInv_reserve h ht hs (Option.some.inj hb).symm
    · contradiction
  | counted d v now n =>
    simp only [beatNext] at hb
    split at hb
    · rename_i hroom
      have heq := (Option.some.inj hb).symm
      exact rolloutInv_grant h ht hok hroom hs (by rw [heq]; rfl) (by rw [heq]; rfl) (by rw [heq])
    · rw [← Option.some.inj hb] at hmove ⊢
      exact hmove (fun _ _ _ => Beat.noConfusion) (fun _ => Beat.noConfusion) rfl
  | recording d v now => exact rolloutInv_record h ht hok hs (Option.some.inj hb).symm
  | releasing d =>
    have heq := (Option.some.inj hb).symm
    exact rolloutInv_release h ht hs (by rw [heq]; rfl) (by rw [heq])

theorem rolloutInv_beatFail (h : RolloutInv s) {b : Beat} (ht : s.beats.get t = some b)
    (hs : updateStep s (.beatFail t) = some s') (hb : beatFail s t b = some s') : RolloutInv s' := by
  have hmove : (∀ d, b ≠ .releasing d) → s'.reservations = s.reservations → RolloutInv s' :=
    fun hne hres => rolloutInv_move h hs (fun _ _ _ _ hu => UpdateAction.noConfusion hu) ht hne hres
      (beats_beatFail hb)
  cases b with
  | loaded | queued | counted | releasing => contradiction
  | selecting | abandoning | clearing | granted | counting | recording =>
    rw [← Option.some.inj hb] at hmove ⊢
    exact hmove (fun _ => Beat.noConfusion) rfl

end beats

theorem rolloutInv_step {s s' : UpdateServer} {a : UpdateAction} (h : RolloutInv s)
    (hok : paced s a = true) (hs : updateStep s a = some s') : RolloutInv s' := by
  cases a with
  | beatNext t =>
    obtain ⟨b, ht, hb⟩ := Option.bind_eq_some_iff.mp hs
    exact rolloutInv_beatNext h ht hok hs hb
  | beatFail t =>
    obtain ⟨b, ht, hb⟩ := Option.bind_eq_some_iff.mp hs
    exact rolloutInv_beatFail h ht hs hb
  | beat t d v =>
    have hs' := hs
    simp only [updateStep] at hs'
    split at hs'
    · split at hs'
      · rename_i hnone
        refine h.quiet hs (fun _ _ _ _ => UpdateAction.noConfusion)
          (slots_le_of_eq (by rw [← Option.some.inj hs']; rfl) ?_)
        intro d' hused
        obtain ⟨u, hu⟩ := used_iff.mp hused
        have hut : u ≠ t := by
          rintro rfl
          rw [hu] at hnone
          contradiction
        refine used_iff.mpr ⟨u, ?_⟩
        rw [← Option.some.inj hs']
        exact (Registry.get_put_of_ne hut).trans hu
      · contradiction
    · contradiction
  | tick | serve | setDevice | reconcile | request | status | updating | cleanup | cancel | next
  | selectOpen | abort =>
    obtain ⟨hbeats, hres⟩ := (updateStep_does hs).slots rfl
    refine h.quiet hs (fun _ _ _ _ => UpdateAction.noConfusion) (slots_le_of_eq hres ?_)
    intro d hused
    rw [UpdateServer.used, hbeats]
    exact hused

/-- In every run under the condition, from any attempts and heartbeats, at most 25 offers are counted
in any minute. -/
theorem rollout_paced (s0 : UpdateServer) (hlog : s0.log = []) (hres : s0.reservations = [])
    (as : List UpdateAction) (s : UpdateServer)
    (hok : StepsMeet updateStep (fun s a => paced s a) s0 as) (h : run updateStep s0 as = some s)
    (x : Int) : offersAfter s.log x ≤ updateRolloutMaxPerWindow := by
  have h0 : RolloutInv s0 := by
    refine ⟨hlog ▸ offerInv_nil _, ?_⟩
    intro x
    rw [UpdateServer.slots, hlog, hres]
    exact Nat.zero_le _
  have hinv : RolloutInv s := run_invariant (fun _ _ _ => rolloutInv_step) h0 hok h
  have := hinv.window x
  omega

/-- Two heartbeats whose slots are taken before either offer is recorded. -/
def twoOffers : List UpdateAction :=
  .beat 0 0 [] :: .beat 1 1 [] :: List.replicate 5 (.beatNext 0) ++ List.replicate 8 (.beatNext 1) ++
    List.replicate 3 (.beatNext 0)

theorem rollout_paced_two :
    (run updateStep (updateFleet 2) twoOffers).map (fun s => offers s.log) =
      some [((1, newVersion), 0), ((0, newVersion), 0)] ∧
    ∃ s, run updateStep (updateFleet 2) twoOffers = some s ∧
      offersAfter s.log (-1) ≤ updateRolloutMaxPerWindow := by
  have hoffers : (run updateStep (updateFleet 2) twoOffers).map (fun s => offers s.log) =
      some [((1, newVersion), 0), ((0, newVersion), 0)] := by decide +kernel
  refine ⟨hoffers, ?_⟩
  obtain ⟨s, hs, -⟩ := Option.map_eq_some_iff.mp hoffers
  exact ⟨s, hs, rollout_paced (updateFleet 2) rfl rfl twoOffers s (by decide +kernel) hs (-1)⟩

/-- Each of 26 devices reads its clock and waits for `slotLock`. -/
def arrivals : List UpdateAction :=
  (List.range 26).flatMap fun t => .beat t t [] :: List.replicate 2 (.beatNext t)

/-- The first 25 take a slot and record their offers a millisecond later; then it is the turn of the
last one, whose clock is before all of them. -/
def lateSlot : List UpdateAction :=
  arrivals ++ (List.range 25).flatMap (fun t => List.replicate 3 (.beatNext t)) ++ .tick 1 ::
    (List.range 25).flatMap (fun t => List.replicate 3 (.beatNext t)) ++
      List.replicate 5 (.beatNext 25)

/-- The last offer is the 26th of the same millisecond. -/
theorem rollout_overshoot : ¬ ∀ s0 : UpdateServer, s0.log = [] → s0.reservations = [] →
    ∀ as s, run updateStep s0 as = some s → ∀ x, offersAfter s.log x ≤ updateRolloutMaxPerWindow := by
  intro h
  have hoffers : (run updateStep (updateFleet 26) lateSlot).map (fun s => offersAfter s.log 0) =
      some 26 := by decide +kernel
  obtain ⟨s, hs, hoffers⟩ := Option.map_eq_some_iff.mp hoffers
  have hle := h (updateFleet 26) rfl rfl lateSlot s hs 0
  rw [hoffers] at hle
  exact absurd hle (by decide)

end Obliguard.Server

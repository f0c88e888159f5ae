import Obliguard.Server.CommandEffects

/-!
# Deliveries of the command queue

What holds in every interleaving of the statements of `AgentCommands`: at most one outstanding row
per device and type, a requeue between two claims that return a row, and acknowledgements that stay
with their device (`deliveries_once`). The index gives the first. The second rests on the lock of the
device row: the rows of a claim are of its device, so no two claims have one in common.
-/

namespace Obliguard.Server

open ReadCommitted Runs

/-! ## One outstanding row per device and type -/

theorem unique_step {s s' : CommandDb} {a : CommandAction} (h : Unique outstandingKey s.commands)
    (hs : commandStep s a = some s') : Unique outstandingKey s'.commands := by
  cases commandStep_effect hs with
  | keep | start | advance => exact h
  | update ha htx hdevice hexec hrows => exact unique_writes h (update_writes hexec)
  | insert htx hdevice hins hrows hsent => exact unique_writes h (insert_writes hins)
  | commit htx hsent => exact unique_commit h _
  | rollback => exact unique_rollback h _
  | alone hu hexec => exact unique_writes h (update_writes hexec)

/-! ## The history of a row -/

/-- A claim returned the row and no requeue took it back since. -/
def held (events : List DeliveryEvent) (i : Nat) : Bool :=
  events.foldl (fun h e => match e with
    | .returned j _ => j == i || h
    | .requeued j => j != i && h) false

/-- Between two claims of a row there is a requeue of it. -/
def Spaced (events : List DeliveryEvent) : Prop :=
  ∀ pre mid post i b b', events = pre ++ .returned i b :: (mid ++ .returned i b' :: post) →
    .requeued i ∈ mid

theorem held_append_returned (events : List DeliveryEvent) (rows : List Nat)
    (b : Nat → Option AgentCommandStatus) (i : Nat) :
    held (events ++ rows.map fun j => .returned j (b j)) i = (rows.contains i || held events i) := by
  induction rows using List.reverseRecOn with
  | nil => simp
  | append_singleton rows j ih =>
    rw [List.map_append, ← List.append_assoc, held, List.foldl_append, ← held, ih]
    by_cases hij : i = j
    · simp [hij]
    · simp [hij, Ne.symm hij]

theorem held_append_requeued (events : List DeliveryEvent) (ids : List Nat) (i : Nat) :
    held (events ++ ids.map .requeued) i = (!ids.contains i && held events i) := by
  induction ids using List.reverseRecOn with
  | nil => simp
  | append_singleton ids j ih =>
    rw [List.map_append, ← List.append_assoc, held, List.foldl_append, ← held, ih]
    by_cases hij : i = j
    · simp [hij]
    · simp [hij, Ne.symm hij]

theorem requeued_of_not_held {pre mid : List DeliveryEvent} {i : Nat}
    {b : Option AgentCommandStatus} (h : held (pre ++ .returned i b :: mid) i = false) :
    .requeued i ∈ mid := by
  induction mid using List.reverseRecOn with
  | nil => simp [held] at h
  | append_singleton mid e ih =>
    rw [List.mem_append]
    rw [← List.cons_append, ← List.append_assoc, held, List.foldl_append, ← held] at h
    cases e with
    | returned j b' =>
      refine .inl (ih ?_)
      have : j ≠ i ∧ held (pre ++ .returned i b :: mid) i = false := by simpa using h
      exact this.2
    | requeued j =>
      by_cases hji : j = i
      · exact .inr (List.mem_singleton.mpr (by rw [hji]))
      · refine .inl (ih ?_)
        simpa [hji] using h

theorem Spaced.snoc {events : List DeliveryEvent} {e : DeliveryEvent} (h : Spaced events)
    (he : ∀ i b, e = .returned i b → held events i = false) : Spaced (events ++ [e]) := by
  intro pre mid post i b b' heq
  rcases List.eq_nil_or_concat post with rfl | ⟨post, e', rfl⟩
  · have heq : events ++ [e] = (pre ++ .returned i b :: mid) ++ [.returned i b'] := by
      rw [heq, List.append_assoc, List.cons_append]
    obtain ⟨rfl, hlast⟩ := List.append_inj' heq rfl
    exact requeued_of_not_held (he i b' (List.singleton_inj.mp hlast))
  · have heq : events ++ [e] =
        (pre ++ .returned i b :: (mid ++ .returned i b' :: post)) ++ [e'] := by
      rw [heq, List.concat_eq_append]
      simp
    exact h pre mid post i b b' (List.append_inj' heq rfl).1

theorem Spaced.append_requeued {events : List DeliveryEvent} (h : Spaced events) (ids : List Nat) :
    Spaced (events ++ ids.map .requeued) := by
  induction ids using List.reverseRecOn with
  | nil => simpa using h
  | append_singleton ids j ih =>
    rw [List.map_append, ← List.append_assoc]
    refine ih.snoc ?_
    intro i b he
    contradiction

theorem Spaced.append_returned {events : List DeliveryEvent} {rows : List Nat} (h : Spaced events)
    (b : Nat → Option AgentCommandStatus) (hnodup : rows.Nodup)
    (hrows : ∀ i ∈ rows, held events i = false) :
    Spaced (events ++ rows.map fun j => .returned j (b j)) := by
  induction rows using List.reverseRecOn with
  | nil => simpa using h
  | append_singleton rows j ih =>
    rw [List.nodup_append] at hnodup
    rw [List.map_append, ← List.append_assoc]
    have hrows' : ∀ i ∈ rows, held events i = false := fun i hi =>
      hrows i (List.mem_append_left _ hi)
    refine (ih hnodup.1 hrows').snoc ?_
    intro i b' he
    obtain ⟨rfl, -⟩ := DeliveryEvent.returned.inj he
    have hnot : rows.contains j = false := by
      rw [← Bool.not_eq_true, List.contains_iff_mem]
      intro hj
      exact hnodup.2.2 j hj j (List.mem_singleton_self j) rfl
    rw [held_append_returned, hnot, hrows j (List.mem_append_right _ (List.mem_singleton_self j))]
    rfl

/-! ## Claims and requeues alternate -/

/-- The transactions and the history fit the tables. -/
structure DeliveryInv (s : CommandDb) : Prop where
  locks : ∀ t tx, s.txs t = some tx → (s.devices.cells tx.deviceId).owned (some t) = true
  fixed : ∀ i, (s.commands.cells i).Fixed AgentCommandRow.deviceId
  /-- The rows of a claim are of its device, and no earlier claim of them holds. -/
  rows : ∀ t tx, s.txs t = some tx → ∀ i ∈ tx.rows, held s.events i = false ∧
    ∃ r, (s.commands.cells i).view (some t) = some r ∧ r.deviceId = tx.deviceId
  sent : ∀ t tx, s.txs t = some tx → tx.sent = true → tx.rows.Nodup ∧
    ∀ i ∈ tx.rows, ∃ r, (s.commands.cells i).working = some (t, r) ∧ r.status ≠ .queued
  held_committed : ∀ i r, held s.events i = true → (s.commands.cells i).committed = some r →
    r.status ≠ .queued
  held_working : ∀ i t r, held s.events i = true → (s.commands.cells i).working = some (t, r) →
    r.status ≠ .queued
  held_lt : ∀ i, held s.events i = true → i < s.commands.seq
  spaced : Spaced s.events

section delivery
variable {s : CommandDb} {t : Nat} {i : Nat}

theorem DeliveryInv.not_held (h : DeliveryInv s) {tx : Option Nat} {r : AgentCommandRow}
    (hr : (s.commands.cells i).view tx = some r) (hq : r.status = .queued) :
    held s.events i = false := by
  rw [← Bool.not_eq_true]
  intro hheld
  unfold Cell.view at hr
  split at hr
  · rename_i u w hw
    split at hr
    · rw [← Option.some.inj hr] at hq
      exact h.held_working i u w hheld hw hq
    · exact h.held_committed i r hheld hr hq
  · exact h.held_committed i r hheld hr hq

theorem DeliveryInv.claim_eq (h : DeliveryInv s) {u : Nat} {tx tx' : CommandTx}
    (htx : s.txs t = some tx) (htx' : s.txs u = some tx') (hi : i ∈ tx.rows) (hi' : i ∈ tx'.rows) :
    t = u := by
  obtain ⟨-, r, hr, hd⟩ := h.rows t tx htx i hi
  obtain ⟨-, r', hr', hd'⟩ := h.rows u tx' htx' i hi'
  have hdevice : tx.deviceId = tx'.deviceId := by
    rw [← hd, ← hd']
    exact (h.fixed i).view_eq hr hr'
  obtain ⟨v, hv⟩ := Cell.owned_iff.mp (h.locks t tx htx)
  obtain ⟨v', hv'⟩ := Cell.owned_iff.mp (h.locks u tx' htx')
  rw [← hdevice, hv] at hv'
  exact (Prod.mk.inj (Option.some.inj hv')).1

theorem setTx_other {tx' : Option CommandTx} {u : Nat} {tx : CommandTx}
    (h : (s.setTx t tx').txs u = some tx) : (u = t ∧ tx' = some tx) ∨ (u ≠ t ∧ s.txs u = some tx) := by
  simp only [CommandDb.setTx] at h
  split at h
  · rename_i hut
    exact .inl ⟨hut, h⟩
  · rename_i hut
    exact .inr ⟨hut, h⟩

/-- The steps that leave `agent_commands` and the history alone. -/
theorem DeliveryInv.move (h : DeliveryInv s) {tx : CommandTx} {devices : Store AgentDeviceRow}
    (hlocks : LocksKept s.devices devices)
    (howned : (devices.cells tx.deviceId).owned (some t) = true)
    (hrows : ∀ i ∈ tx.rows, held s.events i = false ∧
      ∃ r, (s.commands.cells i).view (some t) = some r ∧ r.deviceId = tx.deviceId)
    (hsent : tx.sent = true → tx.rows.Nodup ∧
      ∀ i ∈ tx.rows, ∃ r, (s.commands.cells i).working = some (t, r) ∧ r.status ≠ .queued) :
    DeliveryInv { (s.setTx t (some tx)) with devices := devices } where
  locks := by
    intro u tx' htx'
    rcases setTx_other htx' with ⟨rfl, htx⟩ | ⟨-, htx⟩
    · rw [← Option.some.inj htx]
      exact howned
    · exact hlocks _ u (h.locks u tx' htx)
  fixed := h.fixed
  rows := by
    intro u tx' htx'
    rcases setTx_other htx' with ⟨rfl, htx⟩ | ⟨-, htx⟩
    · rw [← Option.some.inj htx]
      exact hrows
    · exact h.rows u tx' htx
  sent := by
    intro u tx' htx'
    rcases setTx_other htx' with ⟨rfl, htx⟩ | ⟨-, htx⟩
    · rw [← Option.some.inj htx]
      exact hsent
    · exact h.sent u tx' htx
  held_committed := h.held_committed
  held_working := h.held_working
  held_lt := h.held_lt
  spaced := h.spaced

end delivery

theorem deliveryInv_alone {s : CommandDb} {u : CommandUpdate} {ids : List Nat}
    {commands : Store AgentCommandRow} {deviceWrites : List DeviceWrite} (h : DeliveryInv s)
    (hexec : u.exec s.commands none = .done (ids, commands)) :
    DeliveryInv { s with
      commands := commands
      deviceWrites := deviceWrites
      events := s.events ++ u.events ids } := by
  -- what holds still holds, and of a row that is requeued nothing does
  have hheld : ∀ i, held (s.events ++ u.events ids) i = true → held s.events i = true ∧
      (i ∈ ids → ∀ is, u ≠ .requeue is) := by
    intro i hi
    by_cases hu : ∃ is, u = .requeue is
    · obtain ⟨is, rfl⟩ := hu
      rw [show CommandUpdate.events (.requeue is) ids = ids.map .requeued from rfl,
        held_append_requeued, Bool.and_eq_true, Bool.not_eq_true'] at hi
      refine ⟨hi.2, ?_⟩
      intro hmem
      rw [← List.contains_iff_mem, hi.1] at hmem
      contradiction
    · have hnone : u.events ids = [] := by
        unfold CommandUpdate.events
        split
        · exact absurd ⟨_, rfl⟩ hu
        · rfl
      rw [hnone, List.append_nil] at hi
      exact ⟨hi, fun _ is he => hu ⟨is, he⟩⟩
  refine ⟨h.locks, exec_fixed hexec h.fixed, ?_, ?_, ?_, ?_, ?_, ?_⟩
  · intro t tx htx i hi
    obtain ⟨hnot, r, hr, hd⟩ := h.rows t tx htx i hi
    obtain ⟨r', hr', hd'⟩ := exec_view hexec hr
    refine ⟨?_, r', hr', hd'.trans hd⟩
    rw [← Bool.not_eq_true]
    intro hi
    rw [(hheld i hi).1] at hnot
    contradiction
  · intro t tx htx hsent
    obtain ⟨hnodup, hrows⟩ := h.sent t tx htx hsent
    refine ⟨hnodup, ?_⟩
    intro i hi
    obtain ⟨r, hr, hstatus⟩ := hrows i hi
    exact ⟨r, exec_working_other hexec (by simp) hr, hstatus⟩
  · intro i r hi hr
    obtain ⟨hi, hnot⟩ := hheld i hi
    rcases exec_committed hexec hr with hr | ⟨hmem, r0, rfl⟩
    · exact h.held_committed i r hi hr
    · exact u.set_status_ne_queued r0 (hnot hmem)
  · intro i t r hi hr
    obtain ⟨hi, hnot⟩ := hheld i hi
    rcases exec_working hexec hr with hr | ⟨hmem, r0, rfl⟩
    · exact h.held_working i t r hi hr
    · exact u.set_status_ne_queued r0 (hnot hmem)
  · intro i hi
    rw [show commands.seq = s.commands.seq from seq_update hexec]
    exact h.held_lt i (hheld i hi).1
  · show Spaced (s.events ++ u.events ids)
    unfold CommandUpdate.events
    split
    · exact h.spaced.append_requeued ids
    · rw [List.append_nil]
      exact h.spaced

theorem deliveryInv_update {s : CommandDb} {t : Nat} {tx tx' : CommandTx} {u : CommandUpdate}
    {ids : List Nat} {commands : Store AgentCommandRow} (h : DeliveryInv s)
    (htx : s.txs t = some tx) (hdevice : tx'.deviceId = tx.deviceId)
    (hexec : u.exec s.commands (some t) = .done (ids, commands))
    (hrows : tx'.rows = [] ∧ tx'.sent = false ∧ (∃ d now, u = .expireOf d now) ∨
      tx'.rows = ids ∧ ((∃ c is, tx = .claimUpdate c is ∧ u = .send is c.now) ∨
        ∃ now, u = .sendLegacy tx.deviceId now)) :
    DeliveryInv { (s.setTx t (some tx')) with commands := commands } := by
  have hqueued : ∀ is, u ≠ .requeue is := by
    intro is he
    rcases hrows with ⟨-, -, d, now, rfl⟩ | ⟨-, ⟨c, is', -, rfl⟩ | ⟨now, rfl⟩⟩
    all_goals contradiction
  -- the rows of a delivery were selected before, or are selected now as queued ones of the device
  have hids : tx'.rows = ids → (∃ c is, tx = .claimUpdate c is ∧ u = .send is c.now) ∨
      (∃ now, u = .sendLegacy tx.deviceId now) → ∀ i ∈ ids, held s.events i = false ∧
        ∃ r, (s.commands.cells i).view (some t) = some r ∧ r.deviceId = tx.deviceId := by
    rintro - hu i hi
    obtain ⟨r, hr, hcond⟩ := (mem_update hexec).mp hi
    rcases hu with ⟨c, is, rfl, rfl⟩ | ⟨now, rfl⟩
    · exact h.rows t _ htx i (List.contains_iff_mem.mp hcond)
    · simp only [CommandUpdate.cond, Bool.and_eq_true, beq_iff_eq] at hcond
      exact ⟨h.not_held hr hcond.1.2, r, hr, hcond.1.1⟩
  refine ⟨?_, exec_fixed hexec h.fixed, ?_, ?_, ?_, ?_, ?_, h.spaced⟩
  · intro v tx'' htx''
    rcases setTx_other htx'' with ⟨rfl, heq⟩ | ⟨-, hv⟩
    · rw [← Option.some.inj heq, hdevice]
      exact h.locks v tx htx
    · exact h.locks v tx'' hv
  · intro v tx'' htx'' i hi
    rcases setTx_other htx'' with ⟨rfl, heq⟩ | ⟨-, hv⟩
    · rw [← Option.some.inj heq] at hi ⊢
      rcases hrows with ⟨hnil, -⟩ | ⟨hrows, hu⟩
      · rw [hnil] at hi
        contradiction
      · obtain ⟨hnot, r, hr, hd⟩ := hids hrows hu i (hrows ▸ hi)
        obtain ⟨r', hr', hd'⟩ := exec_view hexec hr
        exact ⟨hnot, r', hr', by rw [hd', hd, hdevice]⟩
    · obtain ⟨hnot, r, hr, hd⟩ := h.rows v tx'' hv i hi
      obtain ⟨r', hr', hd'⟩ := exec_view hexec hr
      exact ⟨hnot, r', hr', hd'.trans hd⟩
  · intro v tx'' htx'' hsent
    rcases setTx_other htx'' with ⟨rfl, heq⟩ | ⟨hne, hv⟩
    · rw [← Option.some.inj heq] at hsent ⊢
      rcases hrows with ⟨-, hnot, -⟩ | ⟨hrows, hu⟩
      · rw [hnot] at hsent
        contradiction
      · rw [hrows]
        refine ⟨nodup_update hexec, ?_⟩
        intro i hi
        obtain ⟨r, hr, -⟩ := (mem_update hexec).mp hi
        refine ⟨u.set r, ?_, u.set_status_ne_queued r hqueued⟩
        show (commands.cells i).working = _
        rw [cells_update hexec hi hr, Cell.working_write_some]
    · obtain ⟨hnodup, hrows'⟩ := h.sent v tx'' hv hsent
      refine ⟨hnodup, ?_⟩
      intro i hi
      obtain ⟨r, hr, hstatus⟩ := hrows' i hi
      refine ⟨r, exec_working_other hexec ?_ hr, hstatus⟩
      exact fun he => hne (Option.some.inj he).symm
  · intro i r hi hr
    rcases exec_committed hexec hr with hr | ⟨-, r0, rfl⟩
    · exact h.held_committed i r hi hr
    · exact u.set_status_ne_queued r0 hqueued
  · intro i v r hi hr
    rcases exec_working hexec hr with hr | ⟨-, r0, rfl⟩
    · exact h.held_working i v r hi hr
    · exact u.set_status_ne_queued r0 hqueued
  · intro i hi
    rw [show commands.seq = s.commands.seq from seq_update hexec]
    exact h.held_lt i hi

theorem deliveryInv_insert {s : CommandDb} {t : Nat} {tx tx' : CommandTx} {row : AgentCommandRow}
    {commands : Store AgentCommandRow} (h : DeliveryInv s) (htx : s.txs t = some tx)
    (hdevice : tx'.deviceId = tx.deviceId)
    (hins : s.commands.insert outstandingKey (some t) row = .done commands) (hrows : tx'.rows = [])
    (hsent : tx'.sent = false) :
    DeliveryInv { (s.setTx t (some tx')) with commands := commands } := by
  have hempty : s.commands.cells s.commands.seq = Cell.empty :=
    s.commands.fresh _ (Nat.le_refl _)
  obtain rfl := insert_eq hins
  have hnew : (s.commands.append (some t) row).cells s.commands.seq = Cell.empty.write (some t) row :=
    if_pos rfl
  have hold : ∀ i, i ≠ s.commands.seq →
      (s.commands.append (some t) row).cells i = s.commands.cells i := fun i hi => if_neg hi
  have hview : ∀ i v r, (s.commands.cells i).view (some v) = some r → i ≠ s.commands.seq := by
    intro i v r hr hi
    rw [hi, hempty] at hr
    contradiction
  have hheld : ∀ i, held s.events i = true → i ≠ s.commands.seq := fun i hi =>
    Nat.ne_of_lt (h.held_lt i hi)
  refine ⟨?_, ?_, ?_, ?_, ?_, ?_, ?_, h.spaced⟩
  · intro v tx'' htx''
    rcases setTx_other htx'' with ⟨rfl, heq⟩ | ⟨-, hv⟩
    · rw [← Option.some.inj heq, hdevice]
      exact h.locks v tx htx
    · exact h.locks v tx'' hv
  · intro i
    show ((s.commands.append (some t) row).cells i).Fixed _
    by_cases hi : i = s.commands.seq
    · rw [hi, hnew]
      intro v r r' _ hr'
      contradiction
    · rw [hold i hi]
      exact h.fixed i
  · intro v tx'' htx'' i hi
    rcases setTx_other htx'' with ⟨rfl, heq⟩ | ⟨-, hv⟩
    · rw [← Option.some.inj heq, hrows] at hi
      contradiction
    · obtain ⟨hnot, r, hr, hd⟩ := h.rows v tx'' hv i hi
      refine ⟨hnot, r, ?_, hd⟩
      show ((s.commands.append (some t) row).cells i).view (some v) = _
      rw [hold i (hview i v r hr)]
      exact hr
  · intro v tx'' htx'' hs
    rcases setTx_other htx'' with ⟨rfl, heq⟩ | ⟨-, hv⟩
    · rw [← Option.some.inj heq, hsent] at hs
      contradiction
    · obtain ⟨hnodup, hrows'⟩ := h.sent v tx'' hv hs
      refine ⟨hnodup, ?_⟩
      intro i hi
      obtain ⟨r, hr, hstatus⟩ := hrows' i hi
      refine ⟨r, ?_, hstatus⟩
      show ((s.commands.append (some t) row).cells i).working = _
      rw [hold i (hview i v r (Cell.view_of_working hr))]
      exact hr
  · intro i r hi hr
    have hr : ((s.commands.append (some t) row).cells i).committed = some r := hr
    rw [hold i (hheld i hi)] at hr
    exact h.held_committed i r hi hr
  · intro i v r hi hr
    have hr : ((s.commands.append (some t) row).cells i).working = some (v, r) := hr
    rw [hold i (hheld i hi)] at hr
    exact h.held_working i v r hi hr
  · intro i hi
    exact Nat.lt_succ_of_lt (h.held_lt i hi)

theorem owned_commit_other {c : Cell AgentDeviceRow} {t v : Nat} (hvt : v ≠ t)
    (h : c.owned (some v) = true) :
    (c.commit t).owned (some v) = true ∧ (c.rollback t).owned (some v) = true := by
  obtain ⟨r, hr⟩ := Cell.owned_iff.mp h
  have hnot : c.owned (some t) ≠ true := by
    intro howned
    obtain ⟨r', hr'⟩ := Cell.owned_iff.mp howned
    exact hvt (Prod.mk.inj (Option.some.inj (hr.symm.trans hr'))).1
  constructor
  · exact Cell.owned_iff.mpr ⟨r, by rw [Cell.working_commit, if_neg hnot, hr]⟩
  · exact Cell.owned_iff.mpr ⟨r, by rw [Cell.working_rollback, if_neg hnot, hr]⟩

theorem deliveryInv_commit {s : CommandDb} {t : Nat} {tx : CommandTx} (h : DeliveryInv s)
    (htx : s.txs t = some tx) (hsent : tx.rows = [] ∨ tx.sent = true) :
    DeliveryInv { (s.commit t) with
      events := s.events ++ tx.rows.map fun i =>
        .returned i ((s.commands.cells i).committed.map (·.status)) } := by
  have hrows : tx.rows.Nodup ∧
      ∀ i ∈ tx.rows, ∃ r, (s.commands.cells i).working = some (t, r) ∧ r.status ≠ .queued := by
    rcases hsent with hnil | hsent
    · rw [hnil]
      exact ⟨List.nodup_nil, fun i hi => absurd hi List.not_mem_nil⟩
    · exact h.sent t tx htx hsent
  have hheld := held_append_returned s.events tx.rows
    fun i => (s.commands.cells i).committed.map (·.status)
  -- a row that is returned now is the version of this claim
  have hversion : ∀ i, held s.events i = true ∨ i ∈ tx.rows →
      (∀ r, ((s.commands.cells i).commit t).committed = some r → r.status ≠ .queued) ∧
        ∀ v r, ((s.commands.cells i).commit t).working = some (v, r) → r.status ≠ .queued := by
    intro i hi
    constructor
    · intro r hr
      rw [Cell.committed_commit] at hr
      split at hr
      · rename_i howned
        obtain ⟨w, hw⟩ := Cell.owned_iff.mp howned
        rw [Cell.view_of_working hw] at hr
        obtain rfl := Option.some.inj hr
        rcases hi with hi | hi
        · exact h.held_working i t w hi hw
        · obtain ⟨w', hw', hstatus⟩ := hrows.2 i hi
          rw [(Prod.mk.inj (Option.some.inj (hw.symm.trans hw'))).2]
          exact hstatus
      · rename_i howned
        rcases hi with hi | hi
        · exact h.held_committed i r hi hr
        · obtain ⟨w', hw', -⟩ := hrows.2 i hi
          exact absurd (Cell.owned_iff.mpr ⟨w', hw'⟩) howned
    · intro v r hr
      rw [Cell.working_commit] at hr
      split at hr
      · contradiction
      · rename_i howned
        rcases hi with hi | hi
        · exact h.held_working i v r hi hr
        · obtain ⟨w', hw', -⟩ := hrows.2 i hi
          exact absurd (Cell.owned_iff.mpr ⟨w', hw'⟩) howned
  have hor : ∀ i, (tx.rows.contains i || held s.events i) = true →
      held s.events i = true ∨ i ∈ tx.rows := by
    intro i hi
    rw [Bool.or_eq_true, List.contains_iff_mem] at hi
    exact hi.symm
  refine ⟨?_, fun i => (h.fixed i).commit t, ?_, ?_, ?_, ?_, ?_, ?_⟩
  · intro v tx' htx'
    rcases setTx_other htx' with ⟨-, heq⟩ | ⟨hne, hv⟩
    · contradiction
    · exact (owned_commit_other hne (h.locks v tx' hv)).1
  · intro v tx' htx' i hi
    rcases setTx_other htx' with ⟨-, heq⟩ | ⟨hne, hv⟩
    · contradiction
    · obtain ⟨hnot, r, hr, hd⟩ := h.rows v tx' hv i hi
      obtain ⟨r', hr', hd'⟩ := (h.fixed i).view_commit t hr
      refine ⟨?_, r', hr', hd'.trans hd⟩
      show held (s.events ++ _) i = false
      rw [hheld, hnot, Bool.or_false, ← Bool.not_eq_true, List.contains_iff_mem]
      intro hmem
      exact hne (h.claim_eq hv htx hi hmem)
  · intro v tx' htx' hs
    rcases setTx_other htx' with ⟨-, heq⟩ | ⟨hne, hv⟩
    · contradiction
    · obtain ⟨hnodup, hrows'⟩ := h.sent v tx' hv hs
      refine ⟨hnodup, ?_⟩
      intro i hi
      obtain ⟨r, hr, hstatus⟩ := hrows' i hi
      refine ⟨r, ?_, hstatus⟩
      show ((s.commands.cells i).commit t).working = _
      rw [Cell.working_commit, if_neg, hr]
      intro howned
      obtain ⟨r', hr'⟩ := Cell.owned_iff.mp howned
      exact hne (Prod.mk.inj (Option.some.inj (hr.symm.trans hr'))).1
  · intro i r hi hr
    exact (hversion i (hor i ((hheld i).symm.trans hi))).1 r hr
  · intro i v r hi hr
    exact (hversion i (hor i ((hheld i).symm.trans hi))).2 v r hr
  · intro i hi
    show i < s.commands.seq
    rcases hor i ((hheld i).symm.trans hi) with hi | hi
    · exact h.held_lt i hi
    · obtain ⟨r, hr, -⟩ := hrows.2 i hi
      by_contra hge
      rw [s.commands.fresh i (by omega)] at hr
      contradiction
  · exact h.spaced.append_returned _ hrows.1 fun i hi => (h.rows t tx htx i hi).1

theorem deliveryInv_rollback {s : CommandDb} (h : DeliveryInv s) (t : Nat) :
    DeliveryInv (s.rollback t) := by
  have hworking : ∀ i v r, ((s.commands.cells i).rollback t).working = some (v, r) →
      (s.commands.cells i).working = some (v, r) := by
    intro i v r hr
    rw [Cell.working_rollback] at hr
    split at hr
    · contradiction
    · exact hr
  refine ⟨?_, fun i => (h.fixed i).rollback t, ?_, ?_, ?_, ?_, h.held_lt, h.spaced⟩
  · intro v tx' htx'
    rcases setTx_other htx' with ⟨-, heq⟩ | ⟨hne, hv⟩
    · contradiction
    · exact (owned_commit_other hne (h.locks v tx' hv)).2
  · intro v tx' htx' i hi
    rcases setTx_other htx' with ⟨-, heq⟩ | ⟨hne, hv⟩
    · contradiction
    · obtain ⟨hnot, r, hr, hd⟩ := h.rows v tx' hv i hi
      exact ⟨hnot, r, (Cell.view_rollback hne).trans hr, hd⟩
  · intro v tx' htx' hs
    rcases setTx_other htx' with ⟨-, heq⟩ | ⟨hne, hv⟩
    · contradiction
    · obtain ⟨hnodup, hrows'⟩ := h.sent v tx' hv hs
      refine ⟨hnodup, ?_⟩
      intro i hi
      obtain ⟨r, hr, hstatus⟩ := hrows' i hi
      refine ⟨r, ?_, hstatus⟩
      show ((s.commands.cells i).rollback t).working = _
      rw [Cell.working_rollback, if_neg, hr]
      intro howned
      obtain ⟨r', hr'⟩ := Cell.owned_iff.mp howned
      exact hne (Prod.mk.inj (Option.some.inj (hr.symm.trans hr'))).1
  · intro i r hi hr
    have hr : ((s.commands.cells i).rollback t).committed = some r := hr
    rw [Cell.committed_rollback] at hr
    exact h.held_committed i r hi hr
  · intro i v r hi hr
    exact h.held_working i v r hi (hworking i v r hr)

theorem deliveryInv_step {s s' : CommandDb} {a : CommandAction} (h : DeliveryInv s)
    (hs : commandStep s a = some s') : DeliveryInv s' := by
  cases commandStep_effect hs with
  | keep hlocks =>
    refine ⟨?_, h.fixed, h.rows, h.sent, h.held_committed, h.held_working, h.held_lt, h.spaced⟩
    exact fun t tx htx => hlocks _ t (h.locks t tx htx)
  | @start t tx devices hrows hsent howned hlocks =>
    refine h.move hlocks howned ?_ ?_
    · rw [hrows]
      exact fun i hi => absurd hi List.not_mem_nil
    · rw [hsent]
      intro hs
      contradiction
  | @advance t tx tx' devices htx hdevice hrows hlocks =>
    refine h.move hlocks ?_ ?_ ?_
    · rw [hdevice]
      exact hlocks _ t (h.locks t tx htx)
    · intro i hi
      rcases hrows with ⟨hrows, -⟩ | ⟨-, hrows⟩
      · rw [hdevice]
        exact h.rows t tx htx i (hrows ▸ hi)
      · obtain ⟨r, hr, hd, hq⟩ := hrows i hi
        exact ⟨h.not_held hr hq, r, hr, hd.trans hdevice.symm⟩
    · intro hsent
      rcases hrows with ⟨hrows, hsent'⟩ | ⟨hnot, -⟩
      · rw [hrows]
        exact h.sent t tx htx (hsent' hsent)
      · rw [hnot] at hsent
        contradiction
  | update ha htx hdevice hexec hrows => exact deliveryInv_update h htx hdevice hexec hrows
  | insert htx hdevice hins hrows hsent => exact deliveryInv_insert h htx hdevice hins hrows hsent
  | commit htx hsent => exact deliveryInv_commit h htx hsent
  | rollback => exact deliveryInv_rollback h _
  | alone hu hexec => exact deliveryInv_alone h hexec

/-! ## Every interleaving -/

/-- The tables between two transactions: nothing is locked, and the unique index holds. -/
structure CommandDb.Idle (s : CommandDb) : Prop where
  txs : ∀ t, s.txs t = none
  working : ∀ i, (s.commands.cells i).working = none
  unique : ∀ i j r r', (s.commands.cells i).committed = some r →
    (s.commands.cells j).committed = some r' → r.outstanding = true → r'.outstanding = true →
      r.deviceId = r'.deviceId → r.type = r'.type → i = j
  events : s.events = []

theorem outstandingKey_eq_some {r : AgentCommandRow} {k : Nat × AgentCommandType} :
    outstandingKey r = some k ↔ r.outstanding = true ∧ (r.deviceId, r.type) = k := by
  unfold outstandingKey
  split
  · rename_i h
    simp [h]
  · rename_i h
    simp [h]

theorem unique_idle {s : CommandDb} (h : s.Idle) : Unique outstandingKey s.commands where
  committed := by
    intro i j r r' k hij hr hr' hk hk'
    rw [outstandingKey_eq_some] at hk hk'
    obtain ⟨hd, ht⟩ := Prod.mk.inj (hk.2.trans hk'.2.symm)
    exact hij (h.unique i j r r' hr hr' hk.1 hk'.1 hd ht)
  working := by
    intro i j t t' r r' k _ hr
    rw [h.working] at hr
    contradiction
  mixed := by
    intro i j t r r' k _ hr
    rw [h.working] at hr
    contradiction

theorem deliveryInv_idle {s : CommandDb} (h : s.Idle) : DeliveryInv s := by
  have hheld : ∀ i, held s.events i = true → False := by
    intro i hi
    rw [h.events] at hi
    contradiction
  refine ⟨?_, ?_, ?_, ?_, fun i _ hi => absurd hi (hheld i), fun i _ _ hi => absurd hi (hheld i),
    fun i hi => absurd hi (hheld i), ?_⟩
  · intro t tx htx
    rw [h.txs] at htx
    contradiction
  · intro i t r r' hr
    rw [h.working] at hr
    contradiction
  · intro t tx htx
    rw [h.txs] at htx
    contradiction
  · intro t tx htx
    rw [h.txs] at htx
    contradiction
  · intro pre mid post i b b' heq
    rw [h.events] at heq
    simp at heq

/-- In every interleaving there is at most one outstanding row per device and type, between two claims
that return a row there is a requeue of it, and an acknowledgement of a device changes no row of
another one. -/
theorem deliveries_once (s0 : CommandDb) (h0 : s0.Idle) (as : List CommandAction) (s : CommandDb)
    (h : run commandStep s0 as = some s) :
    (∀ i j r r', (s.commands.cells i).committed = some r →
      (s.commands.cells j).committed = some r' → r.outstanding = true → r'.outstanding = true →
        r.deviceId = r'.deviceId → r.type = r'.type → i = j) ∧
    Spaced s.events ∧
    ∀ deviceId id status result now s',
      commandStep s (.ack deviceId id status result now) = some s' →
        ∀ i r, (s.commands.cells i).committed = some r → r.deviceId ≠ deviceId →
          s'.commands.cells i = s.commands.cells i := by
  have hunique := run_preserves (P := fun s => Unique outstandingKey s.commands)
    (fun _ _ _ => unique_step) (unique_idle h0) h
  have hinv := run_preserves (P := DeliveryInv) (fun _ _ _ => deliveryInv_step)
    (deliveryInv_idle h0) h
  refine ⟨?_, hinv.spaced, ?_⟩
  · intro i j r r' hr hr' ho ho' hd ht
    by_contra hij
    refine hunique.committed i j r r' (r.deviceId, r.type) hij hr hr' ?_ ?_
    · exact outstandingKey_eq_some.mpr ⟨ho, rfl⟩
    · exact outstandingKey_eq_some.mpr ⟨ho', by rw [hd, ht]⟩
  · intro deviceId id status result now s' hs i r hr hd
    simp only [commandStep] at hs
    split at hs
    · rw [Option.some.inj hs]
    · unfold CommandDb.alone at hs
      split at hs
      · rename_i ids commands hexec
        rw [← Option.some.inj hs]
        rcases exec_cell hexec i with ⟨-, heq⟩ | ⟨-, -, r', hr', hcond, -⟩
        · exact heq
        · rw [Cell.view_none, hr] at hr'
          rw [← Option.some.inj hr'] at hcond
          simp only [CommandUpdate.cond, Bool.and_eq_true, beq_iff_eq] at hcond
          exact absurd hcond.1.1.2 hd
      · rw [Option.some.inj hs]
      · contradiction

/-- An approved device and no commands. -/
def oneDevice : CommandDb where
  commands := Store.empty
  devices := ⟨fun i => if i = 1 then ⟨some ⟨1, .approved, none, none⟩, none⟩ else Cell.empty, 2,
    fun i hi => if_neg (by omega)⟩
  txs _ := none
  deviceWrites := []
  events := []

theorem oneDevice_idle : oneDevice.Idle where
  txs _ := rfl
  working _ := rfl
  unique := by
    intro i j r r' hr
    contradiction
  events := rfl

/-- A restart of the device, committed. -/
def enqueueRestart : List CommandAction :=
  .beginEnqueue 1 ⟨1, 1, .restart, "", none, 0⟩ :: List.replicate 4 (.next 1)

/-- A whole claim of the device. -/
def claimAll (t : Nat) (now : Int) : List CommandAction :=
  .beginClaim t 1 true now :: List.replicate 6 (.next t)

theorem deliveries_once_requeued : ∃ s,
    run commandStep oneDevice (enqueueRestart ++ claimAll 2 1 ++ [.requeue [1]] ++ claimAll 3 2) =
      some s ∧ s.events = [.returned 1 (some .queued), .requeued 1, .returned 1 (some .queued)] ∧
    Spaced s.events := by
  obtain ⟨s, hs, hevents⟩ := Option.map_eq_some_iff.mp
    (show (run commandStep oneDevice
      (enqueueRestart ++ claimAll 2 1 ++ [.requeue [1]] ++ claimAll 3 2)).map (·.events) =
        some [.returned 1 (some .queued), .requeued 1, .returned 1 (some .queued)] by
      decide +kernel)
  exact ⟨s, hs, hevents, (deliveries_once oneDevice oneDevice_idle _ s hs).2.1⟩

end Obliguard.Server

import Mathlib.Order.Lattice
import Obliguard.Lib.DropQueue

/-!
# The event queue of the agent

`agent/eventqueue.go`. The queued events are `items[head:]`; slots before `head` are zeroed, and the
slice is compacted once the released prefix outweighs the live part. `view` forgets the
representation: every operation acts on it as on a bounded queue that drops its oldest elements
(`view_push`, `view_requeue`, `popBatch_fst`, `view_popBatch`), and `eventQueue_balanced` is what
follows for every run.

The queue is generic in its events: `cut` is what `Push` does to each of them. Every operation runs
under the mutex of the queue, so a run is a sequence of operations.
-/

namespace Obliguard.Agent

open DropQueue Runs

/-! ## Events -/

/-- `utf8.RuneStart`: not a continuation byte. -/
def runeStart (b : UInt8) : Bool := b &&& 0xc0 != 0x80

/-- The loop of `truncateUTF8`: back to the start of a rune. -/
def cutAt (s : List UInt8) : Nat → Nat
  | 0 => 0
  | cut + 1 => if runeStart (s.getD (cut + 1) 0) then cut + 1 else cutAt s cut

/-- `truncateUTF8`: at most `max` bytes, no rune split. -/
def truncateUTF8 (s : List UInt8) (max : Nat) : List UInt8 :=
  if s.length ≤ max then s else s.take (cutAt s max)

theorem cutAt_le (s : List UInt8) (max : Nat) : cutAt s max ≤ max := by
  induction max with
  | zero => exact le_rfl
  | succ max ih =>
    rw [cutAt]
    split
    · exact le_rfl
    · omega

theorem length_truncateUTF8 (s : List UInt8) (max : Nat) : (truncateUTF8 s max).length ≤ max := by
  rw [truncateUTF8]
  split
  · assumption
  · have := cutAt_le s max
    rw [List.length_take]
    omega

/-- `AgentIpEvent`. The raw line is kept as bytes. -/
structure AgentIpEvent where
  id : String
  ip : String
  username : String
  service : String
  eventType : String
  timestamp : String
  rawLog : List UInt8
deriving Inhabited, DecidableEq

/-- `eventRawLogMax`. -/
def eventRawLogMax : Nat := 1024

/-- What `Push` does to an event. -/
def AgentIpEvent.cut (e : AgentIpEvent) : AgentIpEvent :=
  { e with rawLog := truncateUTF8 e.rawLog eventRawLogMax }

/-! ## The queue -/

/-- `eventQueueCap`. -/
def eventQueueCap : Nat := 10000

/-- `eventBatchMax`. -/
def eventBatchMax : Nat := 500

structure EventQueue (α : Type) where
  capacity : Nat
  items : List α
  head : Nat
  dropped : Nat
  head_le : head ≤ items.length

namespace EventQueue

variable {α : Type}

/-- `newEventQueue`. -/
def new (capacity : Int) : EventQueue α where
  capacity := if capacity ≤ 0 then eventQueueCap else capacity.toNat
  items := []
  head := 0
  dropped := 0
  head_le := le_rfl

/-- `Len`. -/
def len (q : EventQueue α) : Nat := q.items.length - q.head

/-- The queued events. -/
def view (q : EventQueue α) : List α := q.items.drop q.head

theorem length_view (q : EventQueue α) : q.view.length = q.len := List.length_drop

section operations
variable [Inhabited α]

/-- The slots with the `n` oldest events zeroed. -/
def released (q : EventQueue α) (n : Nat) : List α :=
  q.items.take q.head ++ List.replicate n default ++ q.items.drop (q.head + n)

theorem length_released {q : EventQueue α} {n : Nat} (hn : n ≤ q.len) :
    (q.released n).length = q.items.length := by
  have := q.head_le
  simp only [len] at hn
  simp only [released, List.length_append, List.length_take, List.length_replicate, List.length_drop]
  omega

/-- `advanceLocked`: the `n` oldest events are released, and the slice is compacted once the
released prefix outweighs the live part. -/
def advanceLocked (q : EventQueue α) (n : Nat) (hn : n ≤ q.len) : EventQueue α :=
  let items := q.released n
  let head := q.head + n
  let live := items.length - head
  if live = 0 then { q with items := [], head := 0, head_le := le_rfl }
  else if head > live ∧ head > 64 then
    { q with items := items.drop head, head := 0, head_le := Nat.zero_le _ }
  else { q with
    items := items
    head := head
    head_le := by
      show q.head + n ≤ (q.released n).length
      have := q.head_le
      rw [length_released hn]
      simp only [len] at hn
      omega }

/-- `trimLocked`: the oldest events beyond the capacity are dropped and counted. -/
def trimLocked (q : EventQueue α) : EventQueue α :=
  let excess := q.len - q.capacity
  if excess > 0 then
    let r := q.advanceLocked excess (Nat.sub_le _ _)
    { r with dropped := r.dropped + excess }
  else q

/-- `Push`. -/
def push (cut : α → α) (q : EventQueue α) (evts : List α) : EventQueue α :=
  if evts = [] then q
  else trimLocked { q with
    items := q.items ++ evts.map cut
    head_le := by
      have := q.head_le
      rw [List.length_append]
      omega }

/-- `Requeue`. -/
def requeue (q : EventQueue α) (batch : List α) (dropped : Nat) : EventQueue α :=
  let q := { q with dropped := q.dropped + dropped }
  if batch = [] then q
  else trimLocked { q with items := batch ++ q.view, head := 0, head_le := Nat.zero_le _ }

/-- `PopBatch`. -/
def popBatch (q : EventQueue α) (max : Int) : List α × EventQueue α :=
  let max := if max ≤ 0 then eventBatchMax else max.toNat
  if q.len = 0 then ([], q)
  else (q.view.take (min q.len max), advanceLocked q (min q.len max) (min_le_left _ _))

end operations

/-- `TakeDropped`. -/
def takeDropped (q : EventQueue α) : Nat × EventQueue α := (q.dropped, { q with dropped := 0 })

/-! ## What the operations do to the view -/

section view
variable [Inhabited α] {q : EventQueue α}

theorem drop_released (q : EventQueue α) (n : Nat) :
    (q.released n).drop (q.head + n) = q.view.drop n := by
  have := q.head_le
  have hlen : (q.items.take q.head ++ List.replicate n (default : α)).length = q.head + n := by
    rw [List.length_append, List.length_take, List.length_replicate]
    omega
  rw [released, ← hlen, List.drop_left, hlen, view, List.drop_drop]

/-- Zeroing, the offset and the compaction do not show. -/
theorem view_advanceLocked {n : Nat} (hn : n ≤ q.len) :
    (q.advanceLocked n hn).view = q.view.drop n := by
  have hdrop := q.drop_released n
  unfold advanceLocked
  dsimp only
  split
  · rename_i hlive
    rw [← hdrop, view, List.drop_nil]
    symm
    rw [List.drop_eq_nil_iff]
    omega
  · split
    · rw [← hdrop]
      rfl
    · rw [← hdrop]
      rfl

@[simp] theorem dropped_advanceLocked {n : Nat} (hn : n ≤ q.len) :
    (q.advanceLocked n hn).dropped = q.dropped := by
  unfold advanceLocked
  dsimp only
  repeat' split
  all_goals rfl

@[simp] theorem capacity_advanceLocked {n : Nat} (hn : n ≤ q.len) :
    (q.advanceLocked n hn).capacity = q.capacity := by
  unfold advanceLocked
  dsimp only
  repeat' split
  all_goals rfl

theorem trimLocked_spec (q : EventQueue α) : q.trimLocked.view = keepNewest q.capacity q.view ∧
    q.trimLocked.dropped = q.dropped + (q.view.length - q.capacity) ∧
    q.trimLocked.capacity = q.capacity := by
  have hlen := q.length_view
  unfold trimLocked
  dsimp only
  split
  · refine ⟨?_, ?_, capacity_advanceLocked _⟩
    · rw [keepNewest, hlen]
      exact view_advanceLocked _
    · rw [dropped_advanceLocked, hlen]
  · refine ⟨?_, ?_, rfl⟩
    · rw [keepNewest_of_le]
      omega
    · omega

theorem view_push (cut : α → α) (h : q.view.length ≤ q.capacity) (evts : List α) :
    (q.push cut evts).view = keepNewest q.capacity (q.view ++ evts.map cut) ∧
      (q.push cut evts).dropped =
        q.dropped + ((q.view ++ evts.map cut).length - q.capacity) ∧
      (q.push cut evts).capacity = q.capacity := by
  unfold push
  split
  · rename_i hnil
    rw [hnil, List.map_nil, List.append_nil, keepNewest_of_le h]
    exact ⟨rfl, by omega, rfl⟩
  · obtain ⟨hview, hdropped, hcap⟩ := trimLocked_spec { q with
      items := q.items ++ evts.map cut
      head_le := le_trans q.head_le (by rw [List.length_append]; omega) }
    have happend : (q.items ++ evts.map cut).drop q.head = q.view ++ evts.map cut :=
      List.drop_append_of_le_length q.head_le
    refine ⟨hview.trans ?_, hdropped.trans ?_, hcap⟩
    · rw [← happend]
      rfl
    · rw [← happend]
      rfl

theorem view_requeue (h : q.view.length ≤ q.capacity) (batch : List α) (dropped : Nat) :
    (q.requeue batch dropped).view = keepNewest q.capacity (batch ++ q.view) ∧
      (q.requeue batch dropped).dropped =
        q.dropped + dropped + ((batch ++ q.view).length - q.capacity) ∧
      (q.requeue batch dropped).capacity = q.capacity := by
  unfold requeue
  dsimp only
  split
  · rename_i hnil
    rw [hnil, List.nil_append, keepNewest_of_le h]
    refine ⟨rfl, ?_, rfl⟩
    show q.dropped + dropped = _
    omega
  · exact trimLocked_spec _

theorem view_push_sublist (cut : α → α) (q : EventQueue α) (evts : List α) :
    (q.push cut evts).view.Sublist (q.view ++ evts.map cut) := by
  unfold push
  split
  · exact List.sublist_append_left _ _
  · have happend : (q.items ++ evts.map cut).drop q.head = q.view ++ evts.map cut :=
      List.drop_append_of_le_length q.head_le
    rw [(trimLocked_spec _).1, ← happend]
    exact List.drop_sublist _ _

theorem view_requeue_sublist (q : EventQueue α) (batch : List α) (dropped : Nat) :
    (q.requeue batch dropped).view.Sublist (batch ++ q.view) := by
  unfold requeue
  dsimp only
  split
  · exact List.sublist_append_right _ _
  · rw [(trimLocked_spec _).1]
    exact List.drop_sublist _ _

/-- The limit of a batch. -/
def batchLimit (max : Int) : Nat := if max ≤ 0 then eventBatchMax else max.toNat

/-- What a batch holds depends on the queued events only. -/
theorem popBatch_fst (q : EventQueue α) (max : Int) :
    (q.popBatch max).1 = q.view.take (batchLimit max) := by
  have hlen := q.length_view
  unfold popBatch
  dsimp only
  split
  · rename_i hzero
    rw [hzero, List.length_eq_zero_iff] at hlen
    rw [hlen, List.take_nil]
  · show q.view.take (min q.len (batchLimit max)) = _
    rw [← hlen, min_comm, ← List.take_eq_take_min]

theorem view_popBatch (q : EventQueue α) (max : Int) :
    (q.popBatch max).2.view = q.view.drop (batchLimit max) := by
  have hlen := q.length_view
  unfold popBatch
  dsimp only
  split
  · rename_i hzero
    rw [hzero, List.length_eq_zero_iff] at hlen
    rw [hlen, List.drop_nil]
  · rw [view_advanceLocked]
    show q.view.drop (min q.len (batchLimit max)) = _
    rw [← hlen]
    rcases Nat.le_total q.view.length (batchLimit max) with h | h
    · rw [min_eq_left h, List.drop_length, List.drop_eq_nil_of_le h]
    · rw [min_eq_right h]

theorem popBatch_counters (q : EventQueue α) (max : Int) :
    (q.popBatch max).2.dropped = q.dropped ∧ (q.popBatch max).2.capacity = q.capacity := by
  unfold popBatch
  dsimp only
  split
  · exact ⟨rfl, rfl⟩
  · exact ⟨dropped_advanceLocked (min_le_left _ _), capacity_advanceLocked (min_le_left _ _)⟩

end view

end EventQueue

/-! ## Runs -/

/-- The queue with the batch that is out, what was taken for good, what was pushed, and the part of
the dropped count that was taken. -/
structure QueueState (α : Type) where
  queue : EventQueue α
  out : List α
  gone : List α
  pushed : List α
  taken : Nat

inductive QueueAction (α : Type)
  | push (evts : List α)
  | popBatch (max : Int)
  /-- The batch that is out could not be sent: it goes back with the count taken with it. -/
  | requeue (dropped : Nat)
  /-- The batch that is out was sent. -/
  | sent
  | takeDropped

section runs
variable {α : Type} [Inhabited α]

/-- One operation on the queue; at most one batch is out, and no more of the dropped count goes back
than was taken. -/
def queueStep (cut : α → α) (s : QueueState α) : QueueAction α → Option (QueueState α)
  | .push evts => some { s with
      queue := s.queue.push cut evts
      pushed := s.pushed ++ evts.map cut }
  | .popBatch max =>
    if s.out = [] then some { s with queue := (s.queue.popBatch max).2, out := (s.queue.popBatch max).1 }
    else none
  | .requeue dropped =>
    if dropped ≤ s.taken then some { s with
      queue := s.queue.requeue s.out dropped
      out := []
      taken := s.taken - dropped }
    else none
  | .sent => some { s with out := [], gone := s.gone ++ s.out }
  | .takeDropped => some { s with
      queue := s.queue.takeDropped.2
      taken := s.taken + s.queue.takeDropped.1 }

/-- The ledger of a state: the queue by its view. -/
def QueueState.ledger (s : QueueState α) : Ledger α :=
  ⟨s.queue.view, s.queue.dropped, s.out, s.gone, s.pushed, s.taken⟩

/-- The operation on the ledger. -/
def QueueAction.onLedger (cut : α → α) : QueueAction α → Action α
  | .push evts => .push (evts.map cut)
  | .popBatch max => .pop (EventQueue.batchLimit max)
  | .requeue dropped => .requeue dropped
  | .sent => .settle
  | .takeDropped => .takeDropped

/-- The state with an empty queue. -/
def QueueState.init (capacity : Int) : QueueState α := ⟨EventQueue.new capacity, [], [], [], 0⟩

theorem queueStep_ledger {cut : α → α} {s s' : QueueState α} {a : QueueAction α} {capacity : Nat}
    (hcap : s.queue.capacity = capacity) (hbal : Balanced capacity s.ledger)
    (h : queueStep cut s a = some s') : s'.queue.capacity = capacity ∧
      ledgerStep capacity s.ledger (a.onLedger cut) = some s'.ledger := by
  have hbound : s.queue.view.length ≤ s.queue.capacity := hcap ▸ hbal.bound
  subst hcap
  cases a with
  | push evts =>
    rw [← Option.some.inj h]
    obtain ⟨hview, hdropped, hcap⟩ := EventQueue.view_push cut hbound evts
    refine ⟨hcap, ?_⟩
    simp only [QueueState.ledger, ledgerStep, QueueAction.onLedger, hview, hdropped]
  | popBatch max =>
    simp only [queueStep] at h
    split at h
    · rename_i hout
      rw [← Option.some.inj h]
      obtain ⟨hdropped, hcap⟩ := s.queue.popBatch_counters max
      refine ⟨hcap, ?_⟩
      simp only [QueueState.ledger, ledgerStep, QueueAction.onLedger, hout, if_true, hdropped,
        EventQueue.view_popBatch, EventQueue.popBatch_fst]
    · contradiction
  | requeue dropped =>
    simp only [queueStep] at h
    split at h
    · rename_i htaken
      rw [← Option.some.inj h]
      obtain ⟨hview, hdropped, hcap⟩ := EventQueue.view_requeue hbound s.out dropped
      refine ⟨hcap, ?_⟩
      simp only [QueueState.ledger, ledgerStep, QueueAction.onLedger, htaken, if_true, hview,
        hdropped]
    · contradiction
  | sent =>
    rw [← Option.some.inj h]
    exact ⟨rfl, rfl⟩
  | takeDropped =>
    rw [← Option.some.inj h]
    exact ⟨rfl, rfl⟩

/-- In every run from a new queue, whatever its capacity: the run is one of a bounded queue without
offset or compaction, with the same batches; the queue holds at most its capacity, the events are in
the order they were pushed, and every event pushed is queued, in a batch or counted as dropped. -/
theorem eventQueue_balanced (cut : α → α) (capacity : Int) (as : List (QueueAction α))
    (s : QueueState α) (h : run (queueStep cut) (QueueState.init capacity) as = some s) :
    s.queue.capacity = (EventQueue.new capacity : EventQueue α).capacity ∧
      run (ledgerStep s.queue.capacity) Ledger.empty (as.map (·.onLedger cut)) = some s.ledger ∧
      s.queue.len ≤ s.queue.capacity ∧
      (s.gone ++ s.out ++ s.queue.view).Sublist s.pushed ∧
      (s.gone ++ s.out ++ s.queue.view).length + (s.taken + s.queue.dropped) = s.pushed.length := by
  set n := (EventQueue.new capacity : EventQueue α).capacity with hn
  have hstep : ∀ (s : QueueState α) a s' (t : Ledger α),
      (s.queue.capacity = n ∧ t = s.ledger ∧ Balanced n t) → queueStep cut s a = some s' →
        ∃ t', ledgerStep n t (a.onLedger cut) = some t' ∧
          (s'.queue.capacity = n ∧ t' = s'.ledger ∧ Balanced n t') := by
    rintro s a s' t ⟨hcap, rfl, hbal⟩ hs
    obtain ⟨hcap', hledger⟩ := queueStep_ledger hcap hbal hs
    exact ⟨s'.ledger, hledger, hcap', rfl, ledgerStep_balanced hbal hledger⟩
  obtain ⟨t, hrun, hcap, rfl, hbal⟩ := run_simulation hstep (t := Ledger.empty)
    ⟨rfl, rfl, Balanced.empty n⟩ h
  rw [hcap]
  refine ⟨rfl, hrun, ?_, hbal.order, hbal.count⟩
  rw [← EventQueue.length_view]
  exact hbal.bound

end runs

/-- An event of an address. -/
def sampleEvent (ip : String) : AgentIpEvent := { (default : AgentIpEvent) with ip := ip }

/-- Three events for a queue of two: the oldest is dropped and reported, and a batch of one is put
back with the report after another event came. -/
def fullQueueRun : Option (QueueState AgentIpEvent) :=
  run (queueStep AgentIpEvent.cut) (QueueState.init 2)
    [.push [sampleEvent "192.0.2.1", sampleEvent "192.0.2.2", sampleEvent "192.0.2.3"],
      .takeDropped, .popBatch 1, .push [sampleEvent "192.0.2.4"], .requeue 1]

example : fullQueueRun.map (fun s => (s.queue.view, s.queue.dropped)) =
    some ([sampleEvent "192.0.2.3", sampleEvent "192.0.2.4"], 2) := by decide +kernel

theorem eventQueue_balanced_requeue : ∃ s, fullQueueRun = some s ∧
    (s.gone ++ s.out ++ s.queue.view).Sublist s.pushed ∧
    (s.gone ++ s.out ++ s.queue.view).length + (s.taken + s.queue.dropped) = s.pushed.length := by
  obtain ⟨s, hs⟩ : ∃ s, fullQueueRun = some s :=
    Option.isSome_iff_exists.mp (by decide +kernel)
  exact ⟨s, hs, (eventQueue_balanced AgentIpEvent.cut 2 _ s hs).2.2.2⟩

end Obliguard.Agent

import Obliguard.Agent.EventQueue

/-!
# Flushes that fail

`flushEventQueue` of `agent/cmd_ws.go` against the queue, with the pushes of the pump between any two of its
calls. What a turn takes and cannot send it puts back: `requeue_pushAll` says that queue and counter are then
what the pushes alone would have made of them, `failed_flush_invisible` that so they are after a flush.
-/

namespace Obliguard.Agent

open DropQueue Runs

variable {α : Type} [Inhabited α]

/-! ## Pushes -/

/-- Successive calls of `Push`. -/
def EventQueue.pushAll (cut : α → α) (q : EventQueue α) (pushes : List (List α)) : EventQueue α :=
  pushes.foldl (EventQueue.push cut) q

/-- The same events, oldest first, and the same counter. -/
structure EventQueue.Same (q q' : EventQueue α) : Prop where
  view : q.view = q'.view
  dropped : q.dropped = q'.dropped

/-- The queue holds no more than it may. -/
structure EventQueue.Fits (q : EventQueue α) (capacity : Nat) : Prop where
  bound : q.view.length ≤ capacity
  capacity_eq : q.capacity = capacity

section pushes
variable (cut : α → α) {q : EventQueue α} {n : Nat}

theorem fits_push (h : q.Fits n) (evts : List α) : (q.push cut evts).Fits n := by
  obtain ⟨hbound, rfl⟩ := h
  obtain ⟨hview, -, hcap⟩ := EventQueue.view_push cut hbound evts
  refine ⟨?_, hcap⟩
  rw [hview, length_keepNewest]
  exact Nat.min_le_left _ _

theorem fits_pushAll (h : q.Fits n) (pushes : List (List α)) : (q.pushAll cut pushes).Fits n := by
  induction pushes generalizing q with
  | nil => exact h
  | cons evts pushes ih => exact ih (fits_push cut h evts)

theorem pushAll_spec (h : q.Fits n) (pushes : List (List α)) :
    (q.pushAll cut pushes).view = keepNewest n (q.view ++ pushes.flatten.map cut) ∧
      (q.pushAll cut pushes).dropped = q.dropped + ((q.view ++ pushes.flatten.map cut).length - n) := by
  induction pushes generalizing q with
  | nil =>
    rw [List.flatten_nil, List.map_nil, List.append_nil, keepNewest_of_le h.bound,
      Nat.sub_eq_zero_of_le h.bound]
    exact ⟨rfl, rfl⟩
  | cons evts pushes ih =>
    obtain ⟨hview, hdropped⟩ := ih (fits_push cut h evts)
    obtain ⟨hbound, rfl⟩ := h
    obtain ⟨hpush, hcount, -⟩ := EventQueue.view_push cut hbound evts
    rw [hpush] at hview hdropped
    rw [hcount] at hdropped
    refine ⟨hview.trans ?_, hdropped.trans ?_⟩
    · rw [keepNewest_keepNewest_append, List.append_assoc, List.flatten_cons, List.map_append]
    · simp only [List.length_append, length_keepNewest, List.flatten_cons, List.map_append]
      omega

theorem pushAll_append (pushes pushes' : List (List α)) :
    q.pushAll cut (pushes ++ pushes') = (q.pushAll cut pushes).pushAll cut pushes' :=
  List.foldl_append

end pushes

/-! ## A batch that is put back -/

section requeue
variable (cut : α → α) {q : EventQueue α} {n : Nat}

omit [Inhabited α] in
theorem fits_takeDropped (h : q.Fits n) : q.takeDropped.2.Fits n := ⟨h.bound, h.capacity_eq⟩

theorem fits_popBatch (h : q.Fits n) (max : Int) : (q.popBatch max).2.Fits n := by
  refine ⟨?_, (q.popBatch_counters max).2.trans h.capacity_eq⟩
  rw [EventQueue.view_popBatch, List.length_drop]
  exact (Nat.sub_le _ _).trans h.bound

/-- The counter is taken, then, other events being pushed in between, a batch; both are put back after more
pushes. Nothing of it shows. -/
theorem requeue_pushAll (h : q.Fits n) (before after : List (List α)) (max : Int) :
    let popped := (q.takeDropped.2.pushAll cut before).popBatch max
    ((popped.2.pushAll cut after).requeue popped.1 q.takeDropped.1).Same (q.pushAll cut (before ++ after)) := by
  intro popped
  have htaken := fits_pushAll cut (fits_takeDropped h) before
  have hpopped : popped.2.Fits n := fits_popBatch htaken max
  have hpushed := fits_pushAll cut hpopped after
  obtain ⟨hview, hdropped⟩ := pushAll_spec cut (fits_takeDropped h) before
  obtain ⟨hview', hdropped'⟩ := pushAll_spec cut hpopped after
  obtain ⟨hall, hcount⟩ := pushAll_spec cut h (before ++ after)
  have hbatch : popped.1 ++ popped.2.view = keepNewest n (q.view ++ before.flatten.map cut) := by
    rw [EventQueue.popBatch_fst, EventQueue.view_popBatch, List.take_append_drop]
    exact hview
  have hcounter : popped.2.dropped = (q.view ++ before.flatten.map cut).length - n := by
    rw [(EventQueue.popBatch_counters _ _).1, hdropped]
    exact Nat.zero_add _
  have hbound := hpushed.bound
  rw [← hpushed.capacity_eq] at hbound
  obtain ⟨hback, hbackCount, -⟩ := EventQueue.view_requeue hbound popped.1 q.takeDropped.1
  rw [hpushed.capacity_eq, hview'] at hback hbackCount
  have hlen := congrArg List.length hbatch
  simp only [List.length_append, length_keepNewest] at hlen
  refine ⟨?_, ?_⟩
  · rw [hback, keepNewest_append_keepNewest, ← List.append_assoc, hbatch, keepNewest_keepNewest_append, hall,
      List.flatten_append, List.map_append, List.append_assoc]
  · rw [hbackCount, hdropped', hcounter, hcount]
    simp only [List.length_append, length_keepNewest, List.flatten_append, List.map_append]
    show _ + q.dropped + _ = q.dropped + _
    omega

end requeue

/-! ## `flushEventQueue` -/

/-- What becomes of a frame. -/
inductive FrameResult
  | sent
  /-- `json.Marshal` refuses the frame, and its events are lost. -/
  | marshalError
  | sendError
deriving DecidableEq

/-- One turn of the loop: what the pump pushes before `TakeDropped`, before `PopBatch` and before the
result. -/
structure FlushTurn (α : Type) where
  beforeTake : List (List α)
  beforePop : List (List α)
  beforeResult : List (List α)
  result : FrameResult

/-- What is pushed during a turn. -/
def FlushTurn.pushes (t : FlushTurn α) : List (List α) := t.beforeTake ++ (t.beforePop ++ t.beforeResult)

inductive FlushEnd
  /-- The loop goes on. -/
  | more (remaining : Nat)
  | finished
  | failed
deriving DecidableEq

def flushTurn (cut : α → α) (remaining : Nat) (q : EventQueue α) (t : FlushTurn α) :
    EventQueue α × FlushEnd :=
  let (dropped, q) := (q.pushAll cut t.beforeTake).takeDropped
  let q := q.pushAll cut t.beforePop
  let (batch, q) := if remaining > 0 then q.popBatch eventBatchMax else ([], q)
  let q := q.pushAll cut t.beforeResult
  -- nothing to carry the count
  if batch = [] then (q.requeue [] dropped, .finished)
  else match t.result with
    | .sendError => (q.requeue batch dropped, .failed)
    | _ => (q, .more (remaining - batch.length))

/-- The loop over the given turns. -/
def flushLoop (cut : α → α) : Nat → EventQueue α → List (FlushTurn α) → EventQueue α × FlushEnd
  | remaining, q, [] => (q, .more remaining)
  | remaining, q, t :: turns =>
    match flushTurn cut remaining q t with
    | (q, .more remaining) => flushLoop cut remaining q turns
    | out => out

/-- `flushEventQueue`. -/
def flushEventQueue (cut : α → α) (q : EventQueue α) (turns : List (FlushTurn α)) :
    EventQueue α × FlushEnd :=
  flushLoop cut q.len q turns

section flush
variable {cut : α → α} {q q' : EventQueue α} {n remaining remaining' : Nat} {t : FlushTurn α}

theorem fits_flushTurn (h : q.Fits n) (hmore : flushTurn cut remaining q t = (q', .more remaining')) :
    q'.Fits n := by
  unfold flushTurn at hmore
  dsimp only at hmore
  have htaken := fits_pushAll cut
    (fits_takeDropped (fits_pushAll cut h t.beforeTake)) t.beforePop
  generalize EventQueue.pushAll cut (EventQueue.pushAll cut q t.beforeTake).takeDropped.2 t.beforePop = q1
    at hmore htaken
  have hpopped : (if remaining > 0 then q1.popBatch eventBatchMax else ([], q1)).2.Fits n := by
    split
    · exact fits_popBatch htaken _
    · exact htaken
  generalize (if remaining > 0 then q1.popBatch eventBatchMax else ([], q1)) = popped at hmore hpopped
  split at hmore
  · exact absurd (Prod.mk.inj hmore).2 nofun
  · split at hmore
    · exact absurd (Prod.mk.inj hmore).2 nofun
    · rw [← (Prod.mk.inj hmore).1]
      exact fits_pushAll cut hpopped _

theorem same_flushTurn (h : q.Fits n) (hfailed : flushTurn cut remaining q t = (q', .failed)) :
    q'.Same (q.pushAll cut t.pushes) := by
  unfold flushTurn at hfailed
  dsimp only at hfailed
  have hback := requeue_pushAll cut (fits_pushAll cut h t.beforeTake) t.beforePop
    t.beforeResult eventBatchMax
  rw [← pushAll_append cut] at hback
  by_cases hrem : remaining > 0
  · simp only [if_pos hrem] at hfailed
    split at hfailed
    · exact absurd (Prod.mk.inj hfailed).2 nofun
    · split at hfailed
      · rw [← (Prod.mk.inj hfailed).1]
        exact hback
      · exact absurd (Prod.mk.inj hfailed).2 nofun
  · simp only [if_neg hrem, if_true] at hfailed
    exact absurd (Prod.mk.inj hfailed).2 nofun

theorem flushLoop_failed (h : q.Fits n) {turns : List (FlushTurn α)}
    (hfailed : flushLoop cut remaining q turns = (q', .failed)) :
    ∃ sent t rest q1 r, turns = sent ++ t :: rest ∧ flushLoop cut remaining q sent = (q1, .more r) ∧
      q'.Same (q1.pushAll cut t.pushes) := by
  induction turns generalizing q remaining with
  | nil => exact absurd (Prod.mk.inj hfailed).2 nofun
  | cons t turns ih =>
    rw [flushLoop] at hfailed
    split at hfailed
    · rename_i q1 r hturn
      obtain ⟨sent, t', rest, q2, r', rfl, hsent, hsame⟩ := ih (fits_flushTurn h hturn) hfailed
      refine ⟨t :: sent, t', rest, q2, r', rfl, ?_, hsame⟩
      rw [flushLoop, hturn]
      exact hsent
    · exact ⟨[], t, turns, q, remaining, rfl, rfl, same_flushTurn h hfailed⟩

end flush

/-- In every state that a queue of any capacity can be in: a batch of any size that is taken with the counter
and put back after any pushes leaves events and counter as the pushes alone would; and a flush that fails at
some frame, whatever is pushed meanwhile, leaves them as the flush up to the frame before and the pushes of
the last turn would. -/
theorem failed_flush_invisible (cut : α → α) (capacity : Int) (as : List (QueueAction α)) (s : QueueState α)
    (h : run (queueStep cut) (QueueState.init capacity) as = some s) :
    (∀ (max : Int) (pushes : List (List α)),
      let popped := s.queue.takeDropped.2.popBatch max
      ((popped.2.pushAll cut pushes).requeue popped.1 s.queue.takeDropped.1).Same
        (s.queue.pushAll cut pushes)) ∧
      ∀ (turns : List (FlushTurn α)) (q' : EventQueue α),
        flushEventQueue cut s.queue turns = (q', .failed) →
          ∃ sent t rest q r, turns = sent ++ t :: rest ∧ flushEventQueue cut s.queue sent = (q, .more r) ∧
            q'.Same (q.pushAll cut t.pushes) := by
  have hbound := (eventQueue_balanced cut capacity as s h).2.2.1
  rw [← EventQueue.length_view] at hbound
  have hfits : s.queue.Fits s.queue.capacity := ⟨hbound, rfl⟩
  refine ⟨fun max pushes => requeue_pushAll cut hfits [] pushes max, fun turns q' hfailed => ?_⟩
  exact flushLoop_failed hfits hfailed

/-- A frame that cannot be sent, with two events coming before its result. -/
def failingTurn : FlushTurn AgentIpEvent :=
  ⟨[], [], [[sampleEvent "192.0.2.5", sampleEvent "192.0.2.6"]], .sendError⟩

example : fullQueueRun.map (fun s =>
    let q := (flushEventQueue AgentIpEvent.cut s.queue [failingTurn]).1
    (q.view, q.dropped)) = some ([sampleEvent "192.0.2.5", sampleEvent "192.0.2.6"], 4) := by
  decide +kernel

theorem failed_flush_full_queue : ∃ s, fullQueueRun = some s ∧
    (flushEventQueue AgentIpEvent.cut s.queue [failingTurn]).2 = .failed ∧
    ∃ sent t rest q r, [failingTurn] = sent ++ t :: rest ∧
      flushEventQueue AgentIpEvent.cut s.queue sent = (q, .more r) ∧
      (flushEventQueue AgentIpEvent.cut s.queue [failingTurn]).1.Same (q.pushAll AgentIpEvent.cut t.pushes) := by
  have hrun : (fullQueueRun.map fun s =>
      (flushEventQueue AgentIpEvent.cut s.queue [failingTurn]).2) = some .failed := by decide +kernel
  obtain ⟨s, hs, hfailed⟩ := Option.map_eq_some_iff.mp hrun
  exact ⟨s, hs, hfailed, (failed_flush_invisible AgentIpEvent.cut 2 _ s hs).2 [failingTurn] _
    (Prod.ext rfl hfailed)⟩

end Obliguard.Agent

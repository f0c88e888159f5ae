import Mathlib.Data.List.Perm.Subperm
import Obliguard.Agent.EventQueue

/-!
# Delivery of events over the command channel

`flushEventQueue`, `send`, `sendSync` and `writeLoop` of `agent/cmd_ws.go`, step by step, over
successive sessions. A session has a bounded channel of frames to its writer; the session loop
flushes the event queue into it and waits for the result of each frame; anything may end the session
at any time by closing `done`. The session loop waits for the writer before the next session starts.

A frame that is written but not yet reported, or still to be written, when `sendSync` sees the
session closed goes back to the queue all the same. `onlyWaited` is the condition under which this
does not happen, `delivered_once` the result, and `sent_twice` a run without it.
-/

namespace Obliguard.Agent

open Runs

/-! ## The channel -/

/-- `cmdWSOutQueueSize`. -/
def cmdWSOutQueueSize : Nat := 64

/-- An event with the number of its push, by which it is told from every other one. -/
structure Stamped where
  stamp : Nat
  event : AgentIpEvent
deriving Inhabited, DecidableEq

def Stamped.cut (e : Stamped) : Stamped := { e with event := e.event.cut }

/-- A frame for the writer, with its own result channel. A frame without events is any other one. -/
structure Frame where
  seq : Nat
  batch : List Stamped
deriving DecidableEq

/-- Where `writeLoop` stands. -/
inductive WriterPc
  | idle
  | writing (f : Frame)
  | reporting (f : Frame) (ok : Bool)
  | returned
deriving DecidableEq

/-- Where the session loop stands in `flushEventQueue`, with the events still to send, the dropped
count it took and its batch. -/
inductive FlushPc
  | idle
  | loop (remaining : Nat)
  | took (remaining dropped : Nat)
  | sending (remaining dropped : Nat) (batch : List Stamped)
  /-- In `send`, past the first look at `done`. -/
  | selecting (remaining dropped : Nat) (batch : List Stamped)
  | awaiting (remaining dropped : Nat) (batch : List Stamped) (seq : Nat)
  | requeuing (dropped : Nat) (batch : List Stamped)
  /-- The flush returned an error: the session loop ends. -/
  | ended
deriving DecidableEq

structure Channel where
  queue : EventQueue Stamped
  /-- The number of the next event. -/
  next : Nat
  out : List Frame
  nextSeq : Nat
  done : Bool
  writer : WriterPc
  flusher : FlushPc
  /-- The result channel of the frame the flush waits for. -/
  result : Option Bool
  /-- The batches of the frames whose `WriteFrame` succeeded. -/
  delivered : List (List Stamped)

/-- A first session on an empty queue. -/
def Channel.init (capacity : Int) : Channel :=
  ⟨EventQueue.new capacity, 0, [], 0, false, .idle, .idle, none, []⟩

inductive ChannelAction
  | push (evts : List AgentIpEvent)
  | flush
  | takeDropped
  | popBatch
  | marshalError
  | sendCheck
  | enqueue
  | sendClosed
  | sendTimeout
  | awaitResult
  | giveUp
  | requeue
  | sendOther
  | writerTake
  | writerStop
  | writeOk
  | writeError
  | report
  | fail
  | newSession
deriving DecidableEq

/-- The events of a push, numbered. -/
def stampAll (next : Nat) (evts : List AgentIpEvent) : List Stamped :=
  (evts.zipIdx next).map fun p => ⟨p.2, p.1⟩

/-- One step. -/
def channelStep (s : Channel) : ChannelAction → Option Channel
  | .push evts => some { s with
      queue := s.queue.push Stamped.cut (stampAll s.next evts)
      next := s.next + evts.length }
  | .flush => match s.flusher with
    | .idle => some { s with flusher := .loop s.queue.len }
    | _ => none
  | .takeDropped => match s.flusher with
    | .loop remaining => some { s with
        queue := s.queue.takeDropped.2
        flusher := .took remaining s.queue.takeDropped.1 }
    | _ => none
  | .popBatch => match s.flusher with
    | .took remaining dropped =>
      let popped := if remaining > 0 then s.queue.popBatch eventBatchMax else ([], s.queue)
      if popped.1 = [] then some { s with queue := popped.2.requeue [] dropped, flusher := .idle }
      else some { s with
        queue := popped.2
        flusher := .sending (remaining - popped.1.length) dropped popped.1 }
    | _ => none
  -- the batch is lost
  | .marshalError => match s.flusher with
    | .sending remaining _ _ => some { s with flusher := .loop remaining }
    | _ => none
  | .sendCheck => match s.flusher with
    | .sending remaining dropped batch => some { s with
        flusher := if s.done then .requeuing dropped batch else .selecting remaining dropped batch }
    | _ => none
  | .enqueue => match s.flusher with
    | .selecting remaining dropped batch =>
      if s.out.length < cmdWSOutQueueSize then some { s with
        out := s.out ++ [⟨s.nextSeq, batch⟩]
        nextSeq := s.nextSeq + 1
        flusher := .awaiting remaining dropped batch s.nextSeq
        result := none }
      else none
    | _ => none
  | .sendClosed => match s.flusher with
    | .selecting _ dropped batch =>
      if s.done then some { s with flusher := .requeuing dropped batch } else none
    | _ => none
  | .sendTimeout => match s.flusher with
    | .selecting _ dropped batch => some { s with done := true, flusher := .requeuing dropped batch }
    | _ => none
  | .awaitResult => match s.flusher, s.result with
    | .awaiting remaining _ _ _, some true => some { s with flusher := .loop remaining }
    | .awaiting _ dropped batch _, some false => some { s with flusher := .requeuing dropped batch }
    | _, _ => none
  | .giveUp => match s.flusher, s.result with
    | .awaiting _ dropped batch _, none =>
      if s.done then some { s with flusher := .requeuing dropped batch } else none
    | _, _ => none
  | .requeue => match s.flusher with
    | .requeuing dropped batch =>
      some { s with queue := s.queue.requeue batch dropped, flusher := .ended }
    | _ => none
  | .sendOther =>
    if s.out.length < cmdWSOutQueueSize then
      some { s with out := s.out ++ [⟨s.nextSeq, []⟩], nextSeq := s.nextSeq + 1 }
    else none
  -- `select` may take a frame although `done` is closed
  | .writerTake => match s.writer, s.out with
    | .idle, f :: out => some { s with writer := .writing f, out := out }
    | _, _ => none
  | .writerStop => match s.writer with
    | .idle => if s.done then some { s with writer := .returned } else none
    | _ => none
  | .writeOk => match s.writer with
    | .writing f => some { s with writer := .reporting f true, delivered := s.delivered ++ [f.batch] }
    | _ => none
  | .writeError => match s.writer with
    | .writing f => some { s with writer := .reporting f false }
    | _ => none
  | .report => match s.writer with
    | .reporting f ok => some { s with
        result := match s.flusher with
          | .awaiting _ _ _ seq => if seq = f.seq then some ok else s.result
          | _ => s.result
        done := s.done || !ok
        writer := if ok then .idle else .returned }
    | _ => none
  | .fail => some { s with done := true }
  | .newSession => match s.writer, s.flusher with
    | .returned, .idle | .returned, .ended =>
      if s.done then some { s with
        out := []
        done := false
        writer := .idle
        flusher := .idle
        result := none }
      else none
    | _, _ => none

/-! ## The condition -/

/-- The frame that the flush waits for was written, reported or not. -/
def Channel.isWritten (s : Channel) (seq : Nat) : Bool :=
  s.result == some true || match s.writer with
    | .reporting f true => f.seq == seq
    | _ => false

/-- The condition: `sendSync` does not give up on a frame that the writer has written and not yet
reported, and the writer does not write a batch whose `sendSync` has given up. -/
def onlyWaited (s : Channel) : ChannelAction → Bool
  | .giveUp => match s.flusher with
    | .awaiting _ _ _ seq => !s.isWritten seq
    | _ => true
  | .writeOk => match s.writer, s.flusher with
    | .writing f, .awaiting _ _ _ seq => f.batch == [] || seq == f.seq
    | .writing f, _ => f.batch == []
    | _, _ => true
  | _ => true

/-! ## What a step does -/

/-- The outcomes of each step, with what it found. -/
inductive Moves (s : Channel) : ChannelAction → Channel → Prop
  | push (evts : List AgentIpEvent) : Moves s (.push evts) { s with
      queue := s.queue.push Stamped.cut (stampAll s.next evts)
      next := s.next + evts.length }
  | flush (hf : s.flusher = .idle) : Moves s .flush { s with flusher := .loop s.queue.len }
  | takeDropped {remaining : Nat} (hf : s.flusher = .loop remaining) : Moves s .takeDropped { s with
      queue := s.queue.takeDropped.2
      flusher := .took remaining s.queue.takeDropped.1 }
  | popNothing {remaining dropped : Nat} {queue : EventQueue Stamped}
      (hf : s.flusher = .took remaining dropped) (hview : queue.view = s.queue.view) :
      Moves s .popBatch { s with queue := queue.requeue [] dropped, flusher := .idle }
  | popBatch {remaining left dropped : Nat} {batch : List Stamped} {queue : EventQueue Stamped}
      (hf : s.flusher = .took remaining dropped) (hview : batch ++ queue.view = s.queue.view) :
      Moves s .popBatch { s with queue := queue, flusher := .sending left dropped batch }
  | marshalError {remaining dropped : Nat} {batch : List Stamped}
      (hf : s.flusher = .sending remaining dropped batch) :
      Moves s .marshalError { s with flusher := .loop remaining }
  | sendOpen {remaining dropped : Nat} {batch : List Stamped}
      (hf : s.flusher = .sending remaining dropped batch) :
      Moves s .sendCheck { s with flusher := .selecting remaining dropped batch }
  | sendRefused {remaining dropped : Nat} {batch : List Stamped}
      (hf : s.flusher = .sending remaining dropped batch) :
      Moves s .sendCheck { s with flusher := .requeuing dropped batch }
  | enqueue {remaining dropped : Nat} {batch : List Stamped}
      (hf : s.flusher = .selecting remaining dropped batch) : Moves s .enqueue { s with
        out := s.out ++ [⟨s.nextSeq, batch⟩]
        nextSeq := s.nextSeq + 1
        flusher := .awaiting remaining dropped batch s.nextSeq
        result := none }
  | sendClosed {remaining dropped : Nat} {batch : List Stamped}
      (hf : s.flusher = .selecting remaining dropped batch) :
      Moves s .sendClosed { s with flusher := .requeuing dropped batch }
  | sendTimeout {remaining dropped : Nat} {batch : List Stamped}
      (hf : s.flusher = .selecting remaining dropped batch) :
      Moves s .sendTimeout { s with done := true, flusher := .requeuing dropped batch }
  | written {remaining dropped seq : Nat} {batch : List Stamped}
      (hf : s.flusher = .awaiting remaining dropped batch seq) (hresult : s.result = some true) :
      Moves s .awaitResult { s with flusher := .loop remaining }
  | failed {remaining dropped seq : Nat} {batch : List Stamped}
      (hf : s.flusher = .awaiting remaining dropped batch seq) (hresult : s.result = some false) :
      Moves s .awaitResult { s with flusher := .requeuing dropped batch }
  | giveUp {remaining dropped seq : Nat} {batch : List Stamped}
      (hf : s.flusher = .awaiting remaining dropped batch seq) :
      Moves s .giveUp { s with flusher := .requeuing dropped batch }
  | requeue {dropped : Nat} {batch : List Stamped} (hf : s.flusher = .requeuing dropped batch) :
      Moves s .requeue { s with queue := s.queue.requeue batch dropped, flusher := .ended }
  | sendOther : Moves s .sendOther { s with
      out := s.out ++ [⟨s.nextSeq, []⟩]
      nextSeq := s.nextSeq + 1 }
  | writerTake {f : Frame} {out : List Frame} (hw : s.writer = .idle) (hout : s.out = f :: out) :
      Moves s .writerTake { s with writer := .writing f, out := out }
  | writerStop (hw : s.writer = .idle) : Moves s .writerStop { s with writer := .returned }
  | writeOk {f : Frame} (hw : s.writer = .writing f) : Moves s .writeOk { s with
      writer := .reporting f true
      delivered := s.delivered ++ [f.batch] }
  | writeError {f : Frame} (hw : s.writer = .writing f) :
      Moves s .writeError { s with writer := .reporting f false }
  | report {f : Frame} {ok : Bool} (hw : s.writer = .reporting f ok) : Moves s .report { s with
      result := match s.flusher with
        | .awaiting _ _ _ seq => if seq = f.seq then some ok else s.result
        | _ => s.result
      done := s.done || !ok
      writer := if ok then .idle else .returned }
  | fail : Moves s .fail { s with done := true }
  | newSession : Moves s .newSession { s with
      out := []
      done := false
      writer := .idle
      flusher := .idle
      result := none }

theorem view_pop (q : EventQueue Stamped) (remaining : Nat) :
    (if remaining > 0 then q.popBatch eventBatchMax else ([], q)).1 ++
      (if remaining > 0 then q.popBatch eventBatchMax else ([], q)).2.view = q.view := by
  split
  · rw [EventQueue.popBatch_fst, EventQueue.view_popBatch, List.take_append_drop]
  · rfl

theorem moves_of_step {s s' : Channel} {a : ChannelAction} (hs : channelStep s a = some s') :
    Moves s a s' := by
  cases a with
  | push evts =>
    obtain rfl := Option.some.inj hs
    exact .push evts
  | fail =>
    obtain rfl := Option.some.inj hs
    exact .fail
  | flush =>
    simp only [channelStep] at hs
    split at hs
    · rename_i hf
      obtain rfl := Option.some.inj hs
      exact .flush hf
    · contradiction
  | takeDropped =>
    simp only [channelStep] at hs
    split at hs
    · rename_i hf
      obtain rfl := Option.some.inj hs
      exact .takeDropped hf
    · contradiction
  | popBatch =>
    simp only [channelStep] at hs
    split at hs
    · rename_i remaining dropped hf
      have hview := view_pop s.queue remaining
      generalize (if remaining > 0 then s.queue.popBatch eventBatchMax else ([], s.queue)) =
        popped at hs hview
      split at hs
      · rename_i hnil
        obtain rfl := Option.some.inj hs
        rw [hnil, List.nil_append] at hview
        exact .popNothing hf hview
      · obtain rfl := Option.some.inj hs
        exact .popBatch hf hview
    · contradiction
  | marshalError =>
    simp only [channelStep] at hs
    split at hs
    · rename_i hf
      obtain rfl := Option.some.inj hs
      exact .marshalError hf
    · contradiction
  | sendCheck =>
    simp only [channelStep] at hs
    split at hs
    · rename_i hf
      obtain rfl := Option.some.inj hs
      split
      · exact .sendRefused hf
      · exact .sendOpen hf
    · contradiction
  | enqueue =>
    simp only [channelStep] at hs
    split at hs
    · rename_i hf
      split at hs
      · obtain rfl := Option.some.inj hs
        exact .enqueue hf
      · contradiction
    · contradiction
  | sendClosed =>
    simp only [channelStep] at hs
    split at hs
    · rename_i hf
      split at hs
      · obtain rfl := Option.some.inj hs
        exact .sendClosed hf
      · contradiction
    · contradiction
  | sendTimeout =>
    simp only [channelStep] at hs
    split at hs
    · rename_i hf
      obtain rfl := Option.some.inj hs
      exact .sendTimeout hf
    · contradiction
  | awaitResult =>
    simp only [channelStep] at hs
    split at hs
    · rename_i hf hresult
      obtain rfl := Option.some.inj hs
      exact .written hf hresult
    · rename_i hf hresult
      obtain rfl := Option.some.inj hs
      exact .failed hf hresult
    · contradiction
  | giveUp =>
    simp only [channelStep] at hs
    split at hs
    · rename_i hf _
      split at hs
      · obtain rfl := Option.some.inj hs
        exact .giveUp hf
      · contradiction
    · contradiction
  | requeue =>
    simp only [channelStep] at hs
    split at hs
    · rename_i hf
      obtain rfl := Option.some.inj hs
      exact .requeue hf
    · contradiction
  | sendOther =>
    simp only [channelStep] at hs
    split at hs
    · obtain rfl := Option.some.inj hs
      exact .sendOther
    · contradiction
  | writerTake =>
    simp only [channelStep] at hs
    split at hs
    · rename_i hw hout
      obtain rfl := Option.some.inj hs
      exact .writerTake hw hout
    · contradiction
  | writerStop =>
    simp only [channelStep] at hs
    split at hs
    · rename_i hw
      split at hs
      · obtain rfl := Option.some.inj hs
        exact .writerStop hw
      · contradiction
    · contradiction
  | writeOk =>
    simp only [channelStep] at hs
    split at hs
    · rename_i hw
      obtain rfl := Option.some.inj hs
      exact .writeOk hw
    · contradiction
  | writeError =>
    simp only [channelStep] at hs
    split at hs
    · rename_i hw
      obtain rfl := Option.some.inj hs
      exact .writeError hw
    · contradiction
  | report =>
    simp only [channelStep] at hs
    split at hs
    · rename_i hw
      obtain rfl := Option.some.inj hs
      exact .report hw
    · contradiction
  | newSession =>
    simp only [channelStep] at hs
    split at hs
    · split at hs
      · obtain rfl := Option.some.inj hs
        exact .newSession
      · contradiction
    · split at hs
      · obtain rfl := Option.some.inj hs
        exact .newSession
      · contradiction
    · contradiction

/-! ## Frames -/

/-- The frames that are not yet reported. -/
def Channel.frames (s : Channel) : List Frame :=
  (match s.writer with
    | .writing f | .reporting f _ => [f]
    | _ => []) ++ s.out

/-- Frames have distinct numbers, and the one the flush waits for carries its batch and has no
result yet. -/
structure FramesOk (s : Channel) : Prop where
  seqs : (s.frames.map (·.seq)).Nodup
  seq_lt : ∀ f ∈ s.frames, f.seq < s.nextSeq
  awaited : ∀ remaining dropped batch seq, s.flusher = .awaiting remaining dropped batch seq →
    seq < s.nextSeq ∧ ∀ f ∈ s.frames, f.seq = seq → f.batch = batch ∧ s.result = none

theorem framesOk_init (capacity : Int) : FramesOk (Channel.init capacity) where
  seqs := List.nodup_nil
  seq_lt := by simp [Channel.frames, Channel.init]
  awaited := by simp [Channel.init]

theorem FramesOk.congr {s s' : Channel} (h : FramesOk s) (hframes : s'.frames = s.frames)
    (hn : s'.nextSeq = s.nextSeq) (hr : s'.result = s.result)
    (hf : ∀ remaining dropped batch seq, s'.flusher = .awaiting remaining dropped batch seq →
      s.flusher = s'.flusher) : FramesOk s' := by
  refine ⟨hframes ▸ h.seqs, ?_, ?_⟩
  · rw [hframes, hn]
    exact h.seq_lt
  · intro remaining dropped batch seq hfl
    rw [hframes, hn, hr]
    exact h.awaited remaining dropped batch seq ((hf _ _ _ _ hfl).trans hfl)

theorem frames_of_quiet {s : Channel} (h : s.writer = .idle ∨ s.writer = .returned) :
    s.frames = s.out := by
  rcases h with h | h
  · rw [Channel.frames, h]
    rfl
  · rw [Channel.frames, h]
    rfl

/-- A frame with the next number is put into the channel. -/
theorem FramesOk.append {s : Channel} (h : FramesOk s) (batch : List Stamped) :
    ((s.frames ++ [Frame.mk s.nextSeq batch]).map (·.seq)).Nodup ∧
      ∀ f ∈ s.frames ++ [Frame.mk s.nextSeq batch], f.seq < s.nextSeq + 1 := by
  constructor
  · rw [List.map_append, List.nodup_append]
    refine ⟨h.seqs, by simp, ?_⟩
    intro a ha b hb
    obtain ⟨f, hf, rfl⟩ := List.mem_map.mp ha
    rw [List.map_singleton, List.mem_singleton] at hb
    have := h.seq_lt f hf
    show f.seq ≠ b
    rw [hb]
    show f.seq ≠ s.nextSeq
    omega
  · intro f hf
    rcases List.mem_append.mp hf with hf | hf
    · exact Nat.lt_succ_of_lt (h.seq_lt f hf)
    · rw [List.mem_singleton.mp hf]
      exact Nat.lt_succ_self _

theorem framesOk_enqueue {s s' : Channel} {batch : List Stamped} (h : FramesOk s)
    (hwriter : s'.writer = s.writer) (hout : s'.out = s.out ++ [⟨s.nextSeq, batch⟩])
    (hnext : s'.nextSeq = s.nextSeq + 1)
    (hawaited : ∀ r d b q, s'.flusher = .awaiting r d b q →
      q = s.nextSeq ∧ b = batch ∧ s'.result = none ∨
        s.flusher = .awaiting r d b q ∧ s'.result = s.result) : FramesOk s' := by
  obtain ⟨hnodup, hlt⟩ := h.append batch
  have hframes : s'.frames = s.frames ++ [Frame.mk s.nextSeq batch] := by
    rw [Channel.frames, Channel.frames, hwriter, hout, List.append_assoc]
  refine ⟨hframes ▸ hnodup, ?_, ?_⟩
  · rw [hframes, hnext]
    exact hlt
  · intro r d b q hfl
    rw [hframes, hnext]
    rcases hawaited r d b q hfl with ⟨rfl, rfl, hresult⟩ | ⟨hfl, hresult⟩
    · refine ⟨Nat.lt_succ_self _, fun f hf hseq => ?_⟩
      rcases List.mem_append.mp hf with hf | hf
      · have := h.seq_lt f hf
        omega
      · rw [List.mem_singleton.mp hf]
        exact ⟨rfl, hresult⟩
    · obtain ⟨hq, hb⟩ := h.awaited r d b q hfl
      refine ⟨Nat.lt_succ_of_lt hq, fun f hf hseq => ?_⟩
      rcases List.mem_append.mp hf with hf | hf
      · rw [hresult]
        exact hb f hf hseq
      · rw [List.mem_singleton.mp hf] at hseq
        exact absurd hseq.symm (Nat.ne_of_lt hq)

theorem framesOk_report {s s' : Channel} {f : Frame} {ok : Bool} (h : FramesOk s)
    (hw : s.writer = .reporting f ok) (hw' : s'.writer = .idle ∨ s'.writer = .returned)
    (hout : s'.out = s.out) (hflusher : s'.flusher = s.flusher) (hnext : s'.nextSeq = s.nextSeq)
    (hresult : s'.result = match s.flusher with
      | .awaiting _ _ _ seq => if seq = f.seq then some ok else s.result
      | _ => s.result) : FramesOk s' := by
  have hframes : s.frames = f :: s.out := by rw [Channel.frames, hw]; rfl
  have hframes' : s'.frames = s.out := by rw [frames_of_quiet hw', hout]
  have hseqs := h.seqs
  have hlt := h.seq_lt
  rw [hframes] at hseqs hlt
  rw [List.map_cons, List.nodup_cons] at hseqs
  refine ⟨?_, ?_, ?_⟩
  · rw [hframes']
    exact hseqs.2
  · rw [hframes', hnext]
    exact fun g hg => hlt g (List.mem_cons_of_mem f hg)
  · intro r d b q hfl
    rw [hflusher] at hfl
    obtain ⟨hq, hb⟩ := h.awaited r d b q hfl
    rw [hnext, hframes']
    refine ⟨hq, fun g hg hseq => ?_⟩
    have hmem : g ∈ s.frames := by
      rw [hframes]
      exact List.mem_cons_of_mem f hg
    have hne : q ≠ f.seq := by
      intro hq
      exact hseqs.1 (List.mem_map.mpr ⟨g, hg, hseq.trans hq⟩)
    rw [hresult, hfl]
    show g.batch = b ∧ (if q = f.seq then some ok else s.result) = none
    rw [if_neg hne]
    exact hb g hmem hseq

theorem framesOk_step {s s' : Channel} {a : ChannelAction} (h : FramesOk s)
    (hs : channelStep s a = some s') : FramesOk s' := by
  cases moves_of_step hs with
  | push evts => exact h.congr rfl rfl rfl fun _ _ _ _ _ => rfl
  | fail => exact h.congr rfl rfl rfl fun _ _ _ _ _ => rfl
  | flush hf | takeDropped hf | popNothing hf _ | popBatch hf _ | marshalError hf | sendOpen hf
  | sendRefused hf | sendClosed hf | sendTimeout hf | written hf _ | failed hf _ | giveUp hf
  | requeue hf => exact h.congr rfl rfl rfl (by simp)
  | enqueue hf =>
    refine framesOk_enqueue h rfl rfl rfl fun r d b q hfl => .inl ?_
    obtain ⟨-, -, rfl, rfl⟩ := FlushPc.awaiting.inj hfl
    exact ⟨rfl, rfl, rfl⟩
  | sendOther => exact framesOk_enqueue h rfl rfl rfl fun r d b q hfl => .inr ⟨hfl, rfl⟩
  | writerTake hw hout =>
    have hframes := (frames_of_quiet (.inl hw)).trans hout
    exact h.congr hframes.symm rfl rfl fun _ _ _ _ _ => rfl
  | writerStop hw => exact h.congr (frames_of_quiet (.inl hw)).symm rfl rfl fun _ _ _ _ _ => rfl
  | writeOk hw | writeError hw =>
    refine h.congr ?_ rfl rfl fun _ _ _ _ _ => rfl
    rw [Channel.frames, Channel.frames, hw]
  | @report f ok hw =>
    refine framesOk_report h hw ?_ rfl rfl rfl rfl
    cases ok with
    | true => exact .inl rfl
    | false => exact .inr rfl
  | newSession => exact ⟨List.nodup_nil, nofun, nofun⟩

/-! ## The ledger of events -/

/-- The events that the flush holds and the writer has not written. -/
def Channel.held (s : Channel) : List Stamped :=
  match s.flusher with
  | .sending _ _ batch | .selecting _ _ batch | .requeuing _ batch => batch
  | .awaiting _ _ batch seq => if s.isWritten seq then [] else batch
  | _ => []

/-- Every event that was delivered or may still be. -/
def Channel.ledger (s : Channel) : List Stamped :=
  s.delivered.flatten ++ (s.held ++ s.queue.view)

theorem isWritten_of_not_reporting {s : Channel} (h : ∀ f, s.writer ≠ .reporting f true)
    (seq : Nat) : s.isWritten seq = (s.result == some true) := by
  unfold Channel.isWritten
  split
  · rename_i f hw
    exact absurd hw (h f)
  · rw [Bool.or_false]

theorem ledger_subperm {s s' : Channel} (hd : s'.delivered = s.delivered)
    (h : (s'.held ++ s'.queue.view).Sublist (s.held ++ s.queue.view)) :
    s'.ledger.Subperm s.ledger := by
  rw [Channel.ledger, Channel.ledger, hd]
  exact ((List.Sublist.refl _).append h).subperm

theorem ledger_subperm_of_held {s s' : Channel} (hd : s'.delivered = s.delivered)
    (hq : s'.queue = s.queue) (hh : s'.held.Sublist s.held) : s'.ledger.Subperm s.ledger := by
  refine ledger_subperm hd ?_
  rw [hq]
  exact hh.append (List.Sublist.refl _)

theorem ledger_subperm_of_held_eq {s s' : Channel} (hd : s'.delivered = s.delivered)
    (hq : s'.queue = s.queue) (hh : s'.held = s.held) : s'.ledger.Subperm s.ledger :=
  ledger_subperm_of_held hd hq (hh ▸ List.Sublist.refl _)

theorem held_congr {s s' : Channel} (hw : ∀ f, s.writer ≠ .reporting f true)
    (hw' : ∀ f, s'.writer ≠ .reporting f true) (hfl : s'.flusher = s.flusher)
    (hr : s'.result = s.result) : s'.held = s.held := by
  have hwritten : ∀ seq, s'.isWritten seq = s.isWritten seq := by
    intro seq
    rw [isWritten_of_not_reporting hw, isWritten_of_not_reporting hw', hr]
  unfold Channel.held
  rw [hfl]
  cases s.flusher with
  | awaiting remaining dropped batch seq =>
    dsimp only
    rw [hwritten]
  | _ => rfl

theorem held_report {s s' : Channel} {f : Frame} {ok : Bool} (h : FramesOk s)
    (hw : s.writer = .reporting f ok) (hw' : ∀ f, s'.writer ≠ .reporting f true)
    (hfl : s'.flusher = s.flusher)
    (hr : s'.result = match s.flusher with
      | .awaiting _ _ _ seq => if seq = f.seq then some ok else s.result
      | _ => s.result) : s'.held = s.held := by
  unfold Channel.held
  rw [hfl]
  cases hf : s.flusher with
  | awaiting remaining dropped batch seq =>
    rw [hf] at hr
    have hwritten : s'.isWritten seq = s.isWritten seq := by
      rw [isWritten_of_not_reporting hw', hr, Channel.isWritten, hw]
      dsimp only
      by_cases hseq : seq = f.seq
      · have hmem : f ∈ s.frames := by rw [Channel.frames, hw]; exact List.mem_cons_self
        have hnone := ((h.awaited _ _ _ _ hf).2 f hmem hseq.symm).2
        rw [if_pos hseq, hnone]
        cases ok
        · rfl
        · simp [hseq]
      · rw [if_neg hseq]
        cases ok
        · rw [Bool.or_false]
        · simp [Ne.symm hseq]
    dsimp only
    rw [hwritten]
  | _ => rfl

theorem awaiting_of_writeOk {s : Channel} {f : Frame} (hok : onlyWaited s .writeOk)
    (hw : s.writer = .writing f) (hb : f.batch ≠ []) :
    ∃ remaining dropped batch, s.flusher = .awaiting remaining dropped batch f.seq := by
  cases hf : s.flusher with
  | awaiting remaining dropped batch seq =>
    have hseq : seq = f.seq := by simpa [onlyWaited, hw, hf, hb] using hok
    exact ⟨remaining, dropped, batch, by rw [hseq]⟩
  | _ => simp [onlyWaited, hw, hf, hb] at hok

theorem ledger_writeOk {s s' : Channel} {f : Frame} (h : FramesOk s) (hok : onlyWaited s .writeOk)
    (hw : s.writer = .writing f) (hw' : s'.writer = .reporting f true)
    (hfl : s'.flusher = s.flusher) (hq : s'.queue = s.queue) (hr : s'.result = s.result)
    (hd : s'.delivered = s.delivered ++ [f.batch]) : s'.ledger.Subperm s.ledger := by
  have hwritten : ∀ seq, s.isWritten seq = (s.result == some true) :=
    isWritten_of_not_reporting fun g hg => by rw [hw] at hg; contradiction
  by_cases hb : f.batch = []
  · have hflat : s'.delivered.flatten = s.delivered.flatten := by rw [hd, hb]; simp
    have hheld : s'.held.Sublist s.held := by
      unfold Channel.held
      rw [hfl]
      cases hf : s.flusher with
      | awaiting remaining dropped batch seq =>
        dsimp only
        by_cases hwr : s.isWritten seq = true
        · rw [if_pos hwr, if_pos]
          rw [hwritten, ← hr] at hwr
          rw [Channel.isWritten, hwr, Bool.true_or]
        · rw [if_neg hwr]
          split
          · exact List.nil_sublist _
          · exact List.Sublist.refl _
      | _ => exact List.Sublist.refl _
    rw [Channel.ledger, Channel.ledger, hflat, hq]
    exact ((List.Sublist.refl _).append (hheld.append (List.Sublist.refl _))).subperm
  · obtain ⟨remaining, dropped, batch, hf⟩ := awaiting_of_writeOk hok hw hb
    have hmem : f ∈ s.frames := by rw [Channel.frames, hw]; exact List.mem_cons_self
    obtain ⟨hbatch, hnone⟩ := (h.awaited _ _ _ _ hf).2 f hmem rfl
    have hheld : s.held = f.batch := by
      unfold Channel.held
      rw [hf]
      dsimp only
      rw [hwritten, hnone, hbatch]
      rfl
    have hheld' : s'.held = [] := by
      unfold Channel.held
      rw [hfl, hf]
      dsimp only
      rw [Channel.isWritten, hw']
      simp
    rw [Channel.ledger, Channel.ledger, hheld, hheld', hq, hd, List.flatten_append,
      List.flatten_singleton, List.nil_append, List.append_assoc]

theorem not_isWritten_of_failed {s : Channel} {remaining dropped seq : Nat} {batch : List Stamped}
    (h : FramesOk s) (hf : s.flusher = .awaiting remaining dropped batch seq)
    (hresult : s.result = some false) : s.isWritten seq = false := by
  rw [Channel.isWritten, hresult]
  split
  · rename_i f hw
    have hmem : f ∈ s.frames := by rw [Channel.frames, hw]; exact List.mem_cons_self
    have hne : f.seq ≠ seq := by
      intro hseq
      have hnone := ((h.awaited _ _ _ _ hf).2 f hmem hseq).2
      rw [hresult] at hnone
      contradiction
    simp [hne]
  · rfl

theorem ledger_step {s s' : Channel} {a : ChannelAction} (h : FramesOk s) (hok : onlyWaited s a)
    (hs : channelStep s a = some s') (hpush : ∀ evts, a ≠ .push evts) :
    s'.ledger.Subperm s.ledger ∧ s'.next = s.next := by
  cases moves_of_step hs with
  | push evts => exact absurd rfl (hpush evts)
  | fail | sendOther => exact ⟨ledger_subperm_of_held_eq rfl rfl rfl, rfl⟩
  | flush hf | marshalError hf | written hf _ =>
    exact ⟨ledger_subperm_of_held rfl rfl (List.nil_sublist _), rfl⟩
  | newSession => exact ⟨ledger_subperm_of_held rfl rfl (List.nil_sublist _), rfl⟩
  | takeDropped hf => exact ⟨ledger_subperm rfl (List.sublist_append_right _ _), rfl⟩
  | popNothing hf hview =>
    have hheld : s.held = [] := by rw [Channel.held, hf]
    refine ⟨ledger_subperm rfl ?_, rfl⟩
    rw [hheld, ← hview]
    exact EventQueue.view_requeue_sublist _ _ _
  | popBatch hf hview =>
    have hheld : s.held = [] := by rw [Channel.held, hf]
    refine ⟨ledger_subperm rfl ?_, rfl⟩
    rw [hheld, ← hview]
    exact List.Sublist.refl _
  | sendOpen hf | sendRefused hf | sendClosed hf | sendTimeout hf =>
    refine ⟨ledger_subperm_of_held rfl rfl ?_, rfl⟩
    rw [Channel.held, Channel.held, hf]
  | enqueue hf =>
    refine ⟨ledger_subperm_of_held rfl rfl ?_, rfl⟩
    rw [Channel.held, Channel.held, hf]
    dsimp only
    split
    · exact List.nil_sublist _
    · exact List.Sublist.refl _
  | failed hf hresult =>
    refine ⟨ledger_subperm_of_held rfl rfl ?_, rfl⟩
    rw [Channel.held, Channel.held, hf]
    dsimp only
    rw [not_isWritten_of_failed h hf hresult]
    exact List.Sublist.refl _
  | giveUp hf =>
    refine ⟨ledger_subperm_of_held rfl rfl ?_, rfl⟩
    rw [Channel.held, Channel.held, hf]
    dsimp only
    simp only [onlyWaited, hf, Bool.not_eq_true'] at hok
    rw [hok]
    exact List.Sublist.refl _
  | requeue hf =>
    refine ⟨ledger_subperm rfl ?_, rfl⟩
    rw [Channel.held, Channel.held, hf]
    exact EventQueue.view_requeue_sublist _ _ _
  | writerTake hw _ | writerStop hw | writeError hw =>
    -- the writer reports no success before or after
    refine ⟨ledger_subperm_of_held_eq rfl rfl ?_, rfl⟩
    exact held_congr (by rw [hw]; simp) (by simp) rfl rfl
  | writeOk hw => exact ⟨ledger_writeOk h hok hw rfl rfl rfl rfl rfl, rfl⟩
  | @report f ok hw =>
    refine ⟨ledger_subperm_of_held_eq rfl rfl ?_, rfl⟩
    refine held_report h hw ?_ rfl rfl
    cases ok with
    | true => simp
    | false => simp

/-! ## Events are delivered once -/

theorem stampAll_cut_stamps (next : Nat) (evts : List AgentIpEvent) :
    ((stampAll next evts).map Stamped.cut).map (·.stamp) = List.range' next evts.length := by
  rw [stampAll, List.map_map, List.map_map]
  exact List.zipIdx_map_snd next evts

/-- Every event that was delivered or may still be is there once, with a number already given. -/
structure Once (s : Channel) : Prop where
  frames : FramesOk s
  nodup : (s.ledger.map (·.stamp)).Nodup
  lt_next : ∀ n ∈ s.ledger.map (·.stamp), n < s.next

theorem once_init (capacity : Int) : Once (Channel.init capacity) where
  frames := framesOk_init capacity
  nodup := List.nodup_nil
  lt_next := by
    intro n hn
    contradiction

theorem once_push {s s' : Channel} {evts : List AgentIpEvent} (h : Once s)
    (hs : channelStep s (.push evts) = some s') : Once s' := by
  refine ⟨framesOk_step h.frames hs, ?_, ?_⟩
  all_goals
    have hsub : (s'.ledger.map (·.stamp)).Sublist
        (s.ledger.map (·.stamp) ++ List.range' s.next evts.length) := by
      rw [← Option.some.inj hs, ← stampAll_cut_stamps, ← List.map_append]
      refine List.Sublist.map _ ?_
      rw [Channel.ledger, Channel.ledger, List.append_assoc, List.append_assoc]
      exact (List.Sublist.refl _).append ((List.Sublist.refl _).append
        (EventQueue.view_push_sublist _ _ _))
  · refine hsub.nodup ?_
    rw [List.nodup_append]
    refine ⟨h.nodup, List.nodup_range', ?_⟩
    intro m hm n hn
    have := h.lt_next m hm
    rw [List.mem_range'_1] at hn
    omega
  · intro n hn
    have hnext : s'.next = s.next + evts.length := by rw [← Option.some.inj hs]
    rcases List.mem_append.mp (hsub.subset hn) with hn | hn
    · have := h.lt_next n hn
      omega
    · rw [List.mem_range'_1] at hn
      omega

theorem once_step {s s' : Channel} {a : ChannelAction} (h : Once s) (hok : onlyWaited s a)
    (hs : channelStep s a = some s') : Once s' := by
  by_cases hpush : ∃ evts, a = .push evts
  · obtain ⟨evts, rfl⟩ := hpush
    exact once_push h hs
  · obtain ⟨hsub, hnext⟩ := ledger_step h.frames hok hs fun evts he => hpush ⟨evts, he⟩
    obtain ⟨l, hperm, hsub⟩ := hsub
    have hperm := hperm.map (·.stamp)
    have hsub := hsub.map (·.stamp)
    refine ⟨framesOk_step h.frames hs, ?_, ?_⟩
    · exact hperm.nodup_iff.mp (hsub.nodup h.nodup)
    · intro n hn
      rw [hnext]
      exact h.lt_next n (hsub.subset (hperm.mem_iff.mpr hn))

/-- In every run, over any number of sessions, in which `sendSync` gives up only on frames that are
not written and the writer writes only batches that are waited for, no event is carried by two
frames whose `WriteFrame` succeeded. -/
theorem delivered_once (capacity : Int) (as : List ChannelAction) (s : Channel)
    (hok : StepsMeet channelStep (fun s a => onlyWaited s a) (Channel.init capacity) as)
    (h : run channelStep (Channel.init capacity) as = some s) :
    (s.delivered.flatten.map (·.stamp)).Nodup := by
  have honce := run_invariant (P := Once) (fun _ _ _ => once_step) (once_init capacity) hok h
  have hnodup := honce.nodup
  rw [Channel.ledger, List.map_append] at hnodup
  exact (List.nodup_append.mp hnodup).1

/-- One event: its session fails before the writer takes the frame, and the next session sends it. -/
def sentOnceRun : List ChannelAction :=
  [.push [default], .flush, .takeDropped, .popBatch, .sendCheck, .enqueue, .fail, .giveUp, .requeue,
    .writerStop, .newSession, .flush, .takeDropped, .popBatch, .sendCheck, .enqueue, .writerTake,
    .writeOk, .report, .awaitResult]

theorem delivered_once_resent :
    ∃ s, run channelStep (Channel.init 0) sentOnceRun = some s ∧ s.delivered.length = 1 ∧
      (s.delivered.flatten.map (·.stamp)).Nodup := by
  obtain ⟨s, hs⟩ : ∃ s, run channelStep (Channel.init 0) sentOnceRun = some s :=
    Option.isSome_iff_exists.mp (by decide +kernel)
  have hlength : (run channelStep (Channel.init 0) sentOnceRun).map (·.delivered.length) =
      some 1 := by decide +kernel
  rw [hs] at hlength
  exact ⟨s, hs, Option.some.inj hlength, delivered_once 0 sentOnceRun s (by decide +kernel) hs⟩

/-- The connection fails while the frame is written: `sendSync` gives up first, the writer succeeds
afterwards, and the next session sends the batch again. -/
def sentTwiceRun : List ChannelAction :=
  [.push [default], .flush, .takeDropped, .popBatch, .sendCheck, .enqueue, .writerTake, .fail,
    .giveUp, .requeue, .writeOk, .report, .writerStop, .newSession, .flush, .takeDropped, .popBatch,
    .sendCheck, .enqueue, .writerTake, .writeOk]

theorem sent_twice : ¬ ∀ (capacity : Int) (as : List ChannelAction) (s : Channel),
    run channelStep (Channel.init capacity) as = some s →
      (s.delivered.flatten.map (·.stamp)).Nodup := by
  intro h
  have hrun : (run channelStep (Channel.init 0) sentTwiceRun).map
      (·.delivered.flatten.map (·.stamp)) = some [0, 0] := by decide +kernel
  obtain ⟨s, hs, hstamps⟩ := Option.map_eq_some_iff.mp hrun
  have hnodup := h 0 sentTwiceRun s hs
  rw [hstamps] at hnodup
  exact absurd hnodup (by decide)

end Obliguard.Agent

import Obliguard.Agent.EventQueue
import Obliguard.Lib.Recent

/-!
# Queued commands on the agent

`queuedCmds` of `agent/cmd_ws.go`: the memory of the command ids, the lock under which commands run,
and the goroutines that wait for it. A command frame registers its id or is answered from the memory;
the goroutine of a registration takes the lock, runs the command, records its final acknowledgement
and returns.

The memory forgets by registration, not by execution, so two executions of an id may be close
together (`executions_close`), and an id registered again while an earlier run of it is still going
gets that run's acknowledgement. `runner_spec` says what holds in every run.
-/

namespace Obliguard.Agent

open Runs DropQueue Recent

/-! ## Messages -/

/-- `queuedCmdMemory`. -/
def queuedCmdMemory : Nat := 64

/-- `updateStatusMaxError`. -/
def updateStatusMaxError : Nat := 500

inductive CmdAckStatus
  | acked
  | succeeded
  | failed
deriving DecidableEq

/-- The values of a result object. -/
inductive AckValue
  | text (bytes : List UInt8)
  | number (n : Nat)
deriving DecidableEq

structure CmdAckMsg where
  id : String
  status : CmdAckStatus
  result : List (String × AckValue)
deriving DecidableEq

/-- A command frame; the payload is the raw JSON. -/
structure CmdCommandMsg where
  id : String
  command : String
  payload : List UInt8
deriving DecidableEq

structure BanApplyResult where
  desired : Nat
  added : Nat
  removed : Nat
  errors : Nat

def BanApplyResult.result (r : BanApplyResult) : List (String × AckValue) :=
  [("desired", .number r.desired), ("added", .number r.added), ("removed", .number r.removed),
    ("errors", .number r.errors)]

/-- What a run meets: the decoded payload, the outcome of each operation it may call and the quoting
of `fmt`. -/
structure CommandEnv where
  payload : Except String (Option (List String))
  resyncFirewall : List String → Except String BanApplyResult
  prepareRestart : Except String Unit
  launchUninstall : Except String Unit
  quote : String → String

def textOf (s : String) : AckValue := .text s.toUTF8.toList

/-- The `fail` of `runQueuedCommand`. -/
def failAck (id text : String) : CmdAckMsg :=
  ⟨id, .failed, [("error", .text (truncateUTF8 text.toUTF8.toList updateStatusMaxError))]⟩

/-- `runQueuedCommand`: the final acknowledgement. -/
def runQueuedCommand (env : CommandEnv) (msg : CmdCommandMsg) : CmdAckMsg :=
  if msg.command = "firewall_resync" then
    match if msg.payload = [] then .ok none else env.payload with
    | .error err => failAck msg.id ("malformed payload: " ++ err)
    | .ok none => failAck msg.id "the command carries no ban list"
    | .ok (some bans) => match env.resyncFirewall bans with
      | .error err => failAck msg.id err
      | .ok res =>
        if res.errors > 0 then
          ⟨msg.id, .failed,
            res.result ++ [("error", textOf (toString res.errors ++ " firewall operation(s) failed"))]⟩
        else ⟨msg.id, .succeeded, res.result⟩
  else if msg.command = "restart" then
    match env.prepareRestart with
    | .error err => failAck msg.id ("restart: " ++ err)
    | .ok () => ⟨msg.id, .succeeded, [("message", textOf "agent restarting")]⟩
  else if msg.command = "uninstall" then
    match env.launchUninstall with
    | .error err => failAck msg.id ("uninstall: " ++ err)
    | .ok () => ⟨msg.id, .succeeded, [("message", textOf "uninstall script launched")]⟩
  else failAck msg.id ("unknown command " ++ env.quote msg.command)

theorem runQueuedCommand_final (env : CommandEnv) (msg : CmdCommandMsg) :
    (runQueuedCommand env msg).id = msg.id ∧ (runQueuedCommand env msg).status ≠ .acked := by
  unfold runQueuedCommand failAck
  repeat' split
  all_goals exact ⟨rfl, by simp⟩

/-! ## The memory -/

/-- `queuedCmds` without its locks. The value of a running command is `none`. -/
structure QueuedCmds where
  state : String → Option (Option CmdAckMsg)
  order : List String

/-- The loop of `beginQueuedCommand` that forgets the oldest ids. -/
def forgetOldest (state : String → Option (Option CmdAckMsg)) : List String → QueuedCmds
  | [] => ⟨state, []⟩
  | id :: order =>
    if order.length + 1 > queuedCmdMemory then
      forgetOldest (fun k => if k = id then none else state k) order
    else ⟨state, id :: order⟩

/-- `beginQueuedCommand`. -/
def beginQueuedCommand (q : QueuedCmds) (id : String) : (Option CmdAckMsg × Bool) × QueuedCmds :=
  match q.state id with
  | some final => ((final, false), q)
  | none => ((none, true),
      forgetOldest (fun k => if k = id then some none else q.state k) (q.order ++ [id]))

/-- `finishQueuedCommand`. -/
def finishQueuedCommand (q : QueuedCmds) (id : String) (ack : CmdAckMsg) : QueuedCmds :=
  match q.state id with
  | some _ => { q with state := fun k => if k = id then some (some ack) else q.state k }
  | none => q

theorem order_forgetOldest (state : String → Option (Option CmdAckMsg)) (order : List String) :
    (forgetOldest state order).order = keepNewest queuedCmdMemory order := by
  induction order generalizing state with
  | nil => rfl
  | cons id order ih =>
    rw [forgetOldest]
    split
    · rename_i hlong
      have hskip : (id :: order).length - queuedCmdMemory =
          order.length - queuedCmdMemory + 1 := by
        rw [List.length_cons]
        omega
      rw [ih, keepNewest, keepNewest, hskip, List.drop_succ_cons]
    · rename_i hshort
      rw [keepNewest_of_le]
      rw [List.length_cons]
      omega

theorem state_forgetOldest (state : String → Option (Option CmdAckMsg)) (order : List String)
    (k : String) : (forgetOldest state order).state k =
      if k ∈ order.take (order.length - queuedCmdMemory) then none else state k := by
  induction order generalizing state with
  | nil => rfl
  | cons id order ih =>
    rw [forgetOldest]
    split
    · rename_i hlong
      have hskip : (id :: order).length - queuedCmdMemory =
          order.length - queuedCmdMemory + 1 := by
        rw [List.length_cons]
        omega
      rw [ih, hskip, List.take_succ_cons]
      by_cases hk : k = id
      · simp [hk]
      · simp [hk]
    · rename_i hshort
      have hzero : (id :: order).length - queuedCmdMemory = 0 := by
        rw [List.length_cons]
        omega
      rw [hzero, List.take_zero, if_neg List.not_mem_nil]

/-- The ids of the map are those of the order. -/
def QueuedCmds.Tied (q : QueuedCmds) : Prop := ∀ id, (q.state id).isSome ↔ id ∈ q.order

theorem beginQueuedCommand_seen {q : QueuedCmds} {id : String} {final : Option CmdAckMsg}
    (h : q.state id = some final) : beginQueuedCommand q id = ((final, false), q) := by
  rw [beginQueuedCommand, h]

theorem beginQueuedCommand_new {q : QueuedCmds} {id : String} (htied : q.Tied)
    (hnodup : q.order.Nodup) (h : q.state id = none) :
    (beginQueuedCommand q id).1 = (none, true) ∧
      (beginQueuedCommand q id).2.order = keepNewest queuedCmdMemory (q.order ++ [id]) ∧
      (beginQueuedCommand q id).2.Tied ∧
      (beginQueuedCommand q id).2.state id = some none ∧
      ∀ k ≠ id, ∀ v, (beginQueuedCommand q id).2.state k = some v → q.state k = some v := by
  have hid : id ∉ q.order := by
    rw [← htied, h]
    simp
  have hall : (q.order ++ [id]).Nodup := by
    rw [List.nodup_append]
    refine ⟨hnodup, List.nodup_singleton id, ?_⟩
    intro a ha b hb hab
    rw [hab, List.mem_singleton.mp hb] at ha
    exact hid ha
  have hbegin : (beginQueuedCommand q id).2 = forgetOldest
      (fun k => if k = id then some none else q.state k) (q.order ++ [id]) := by
    rw [beginQueuedCommand, h]
  have hkeep : ∀ k, k ∈ keepNewest queuedCmdMemory (q.order ++ [id]) ↔
      k ∈ q.order ++ [id] ∧
        k ∉ (q.order ++ [id]).take ((q.order ++ [id]).length - queuedCmdMemory) := by
    intro k
    have hsplit := List.take_append_drop
      ((q.order ++ [id]).length - queuedCmdMemory) (q.order ++ [id])
    have hdisj := hall
    rw [← hsplit, List.nodup_append] at hdisj
    constructor
    · intro hk
      exact ⟨List.mem_of_mem_drop hk, fun hk' => hdisj.2.2 k hk' k hk rfl⟩
    · rintro ⟨hk, hk'⟩
      rw [← hsplit, List.mem_append] at hk
      exact hk.resolve_left hk'
  have hnew : id ∉ (q.order ++ [id]).take ((q.order ++ [id]).length - queuedCmdMemory) := by
    rw [List.take_append_of_le_length]
    · exact fun hm => hid (List.mem_of_mem_take hm)
    · rw [List.length_append, List.length_singleton, queuedCmdMemory]
      omega
  have hstate := state_forgetOldest (fun k => if k = id then some none else q.state k)
    (q.order ++ [id])
  rw [← hbegin] at hstate
  generalize (q.order ++ [id]).take ((q.order ++ [id]).length - queuedCmdMemory) = gone
    at hkeep hnew hstate
  have horder : (beginQueuedCommand q id).2.order = keepNewest queuedCmdMemory (q.order ++ [id]) := by
    rw [hbegin, order_forgetOldest]
  refine ⟨?_, horder, ?_, ?_, ?_⟩
  · rw [beginQueuedCommand, h]
  · intro k
    rw [horder, hkeep, hstate]
    by_cases hk : k ∈ gone
    · simp [hk]
    · rw [if_neg hk]
      by_cases hkid : k = id
      · simp [hkid, hnew]
      · rw [if_neg hkid, htied]
        simp [hk, hkid]
  · rw [hstate, if_neg hnew, if_pos rfl]
  · intro k hkid v hv
    rw [hstate, if_neg hkid] at hv
    split at hv
    · contradiction
    · exact hv

theorem finishQueuedCommand_spec (q : QueuedCmds) (id : String) (ack : CmdAckMsg) :
    (finishQueuedCommand q id ack).order = q.order ∧
      (∀ k, ((finishQueuedCommand q id ack).state k).isSome = (q.state k).isSome) ∧
      (∀ k ≠ id, (finishQueuedCommand q id ack).state k = q.state k) ∧
      ∀ v, (finishQueuedCommand q id ack).state id = some v → v = some ack := by
  unfold finishQueuedCommand
  split
  · rename_i v hv
    refine ⟨rfl, ?_, ?_, ?_⟩
    · intro k
      dsimp only
      split
      · rename_i hk
        rw [hk, hv]
        rfl
      · rfl
    · intro k hk
      exact if_neg hk
    · intro w hw
      dsimp only at hw
      rw [if_pos rfl] at hw
      exact (Option.some.inj hw).symm
  · rename_i hv
    refine ⟨rfl, fun _ => rfl, fun _ _ => rfl, ?_⟩
    intro w hw
    rw [hv] at hw
    contradiction

/-! ## Runs -/

/-- Where the goroutine of a registration stands. -/
inductive TaskPc
  | waiting
  | running
  | finished (ack : CmdAckMsg)
  | returned (ack : CmdAckMsg)
deriving DecidableEq

/-- A registration, with its goroutine. -/
structure Task where
  msg : CmdCommandMsg
  /-- Whether an earlier run of the id was not finished when this one was registered. -/
  overlaps : Bool
  pc : TaskPc

/-- The final acknowledgement of the run, once it is recorded. -/
def Task.ack (t : Task) : Option CmdAckMsg :=
  match t.pc with
  | .finished ack | .returned ack => some ack
  | _ => none

def Task.holdsLock (t : Task) : Bool :=
  match t.pc with
  | .running | .finished _ => true
  | _ => false

inductive RunnerEvent
  | registered (id : String)
  /-- The command of a registration starts to run. -/
  | started (task : Nat)
deriving DecidableEq

structure Runner where
  mem : QueuedCmds
  /-- Whether `run` is locked. -/
  locked : Bool
  /-- The registrations, oldest first. -/
  tasks : List Task
  events : List RunnerEvent

def Runner.init : Runner := ⟨⟨fun _ => none, []⟩, false, [], []⟩

def Runner.ids (s : Runner) : List String := s.tasks.map (·.msg.id)

/-- `startQueuedCommand`, with the acknowledgement it sends; `none` is a frame that cannot be
decoded. -/
def startQueuedCommand (s : Runner) : Option CmdCommandMsg → Option CmdAckMsg × Runner
  | none => (none, s)
  | some msg =>
    if msg.id = "" ∨ msg.id.utf8ByteSize > 64 then (none, s)
    else
      let begun := beginQueuedCommand s.mem msg.id
      if begun.1.2 then (none, { s with
        mem := begun.2
        tasks := s.tasks ++
          [⟨msg, s.tasks.any fun t => t.msg.id == msg.id && t.ack.isNone, .waiting⟩]
        events := s.events ++ [.registered msg.id] })
      else (begun.1.1, { s with mem := begun.2 })

inductive RunnerAction
  /-- A command frame, of any session. -/
  | frame (msg : Option CmdCommandMsg)
  | lock (task : Nat)
  /-- The run ends and its final acknowledgement is recorded. -/
  | finish (task : Nat) (env : CommandEnv)
  | unlock (task : Nat)

def runnerStep (s : Runner) : RunnerAction → Option Runner
  | .frame msg => some (startQueuedCommand s msg).2
  | .lock i => match s.tasks[i]? with
    | some ⟨msg, overlaps, .waiting⟩ =>
      if s.locked then none
      else some { s with
        locked := true
        tasks := s.tasks.set i ⟨msg, overlaps, .running⟩
        events := s.events ++ [.started i] }
    | _ => none
  | .finish i env => match s.tasks[i]? with
    | some ⟨msg, overlaps, .running⟩ =>
      let ack := runQueuedCommand env msg
      some { s with
        mem := finishQueuedCommand s.mem msg.id ack
        tasks := s.tasks.set i ⟨msg, overlaps, .finished ack⟩ }
    | _ => none
  | .unlock i => match s.tasks[i]? with
    | some ⟨msg, overlaps, .finished ack⟩ => some { s with
        locked := false
        tasks := s.tasks.set i ⟨msg, overlaps, .returned ack⟩ }
    | _ => none

/-- The state after the registration of a new id. -/
def Runner.register (s : Runner) (msg : CmdCommandMsg) : Runner := { s with
  mem := (beginQueuedCommand s.mem msg.id).2
  tasks := s.tasks ++ [⟨msg, s.tasks.any fun t => t.msg.id == msg.id && t.ack.isNone, .waiting⟩]
  events := s.events ++ [.registered msg.id] }

theorem runnerStep_cases {s s' : Runner} {a : RunnerAction} (hs : runnerStep s a = some s') :
    s' = s ∨ (∃ msg, s.mem.state msg.id = none ∧ s' = s.register msg) ∨
      (∃ i t, s.tasks[i]? = some t ∧ t.pc = .waiting ∧ s.locked = false ∧ s' = { s with
        locked := true
        tasks := s.tasks.set i { t with pc := .running }
        events := s.events ++ [.started i] }) ∨
      (∃ i t ack, s.tasks[i]? = some t ∧ t.pc = .running ∧ s' = { s with
        mem := finishQueuedCommand s.mem t.msg.id ack
        tasks := s.tasks.set i { t with pc := .finished ack } }) ∨
      ∃ i t ack, s.tasks[i]? = some t ∧ t.pc = .finished ack ∧ s' = { s with
        locked := false
        tasks := s.tasks.set i { t with pc := .returned ack } } := by
  cases a with
  | frame msg =>
    have hs := (Option.some.inj hs).symm
    cases msg with
    | none => exact .inl hs
    | some msg =>
      rw [startQueuedCommand] at hs
      split at hs
      · exact .inl hs
      · dsimp only at hs
        cases hstate : s.mem.state msg.id with
        | none =>
          have hnew : (beginQueuedCommand s.mem msg.id).1.2 = true := by
            rw [beginQueuedCommand, hstate]
          rw [if_pos hnew] at hs
          exact .inr (.inl ⟨msg, hstate, hs⟩)
        | some final =>
          rw [beginQueuedCommand_seen hstate] at hs
          exact .inl hs
  | lock i =>
    simp only [runnerStep] at hs
    split at hs
    · rename_i msg overlaps ht
      split at hs
      · contradiction
      · rename_i hlocked
        exact .inr (.inr (.inl ⟨i, _, ht, rfl, Bool.eq_false_of_not_eq_true hlocked,
          (Option.some.inj hs).symm⟩))
    · contradiction
  | finish i env =>
    simp only [runnerStep] at hs
    split at hs
    · rename_i msg overlaps ht
      exact .inr (.inr (.inr (.inl ⟨i, _, _, ht, rfl, (Option.some.inj hs).symm⟩)))
    · contradiction
  | unlock i =>
    simp only [runnerStep] at hs
    split at hs
    · rename_i msg overlaps ack ht
      exact .inr (.inr (.inr (.inr ⟨i, _, ack, ht, rfl, (Option.some.inj hs).symm⟩)))
    · contradiction

section update
variable {tasks : List Task} {i : Nat} {t : Task} (ht : tasks[i]? = some t) (pc : TaskPc)
include ht

theorem getElem?_set_pc (j : Nat) : (tasks.set i { t with pc := pc })[j]? =
    if j = i then some { t with pc := pc } else tasks[j]? := by
  obtain ⟨hi, -⟩ := List.getElem?_eq_some_iff.mp ht
  rw [List.getElem?_set]
  by_cases hji : j = i
  · rw [if_pos hji.symm, if_pos hi, if_pos hji]
  · rw [if_neg (Ne.symm hji), if_neg hji]

theorem ids_set_pc : (tasks.set i { t with pc := pc }).map (·.msg.id) = tasks.map (·.msg.id) := by
  apply List.ext_getElem?
  intro j
  rw [List.getElem?_map, List.getElem?_map, getElem?_set_pc ht]
  split
  · rename_i hji
    rw [hji, ht]
    rfl
  · rfl

end update

/-! ## The memory holds the newest registrations -/

structure MemOk (s : Runner) : Prop where
  order : s.mem.order = keepNewest queuedCmdMemory s.ids
  admissible : Admissible queuedCmdMemory s.ids
  tied : s.mem.Tied

theorem memOk_init : MemOk Runner.init where
  order := rfl
  admissible := Admissible.nil
  tied := by
    intro id
    simp [Runner.init]

theorem MemOk.congr {s s' : Runner} (h : MemOk s) (hids : s'.ids = s.ids)
    (horder : s'.mem.order = s.mem.order)
    (hstate : ∀ k, (s'.mem.state k).isSome = (s.mem.state k).isSome) : MemOk s' where
  order := by rw [horder, hids, h.order]
  admissible := by
    rw [hids]
    exact h.admissible
  tied := by
    intro k
    rw [hstate, horder]
    exact h.tied k

theorem memOk_step {s s' : Runner} {a : RunnerAction} (h : MemOk s)
    (hs : runnerStep s a = some s') : MemOk s' := by
  rcases runnerStep_cases hs with rfl | ⟨msg, hnew, rfl⟩ | ⟨i, t, ht, -, -, rfl⟩ |
    ⟨i, t, ack, ht, -, rfl⟩ | ⟨i, t, ack, ht, -, rfl⟩
  · exact h
  · have hnodup : s.mem.order.Nodup := by
      rw [h.order]
      exact h.admissible.nodup_newest
    obtain ⟨-, horder, htied, -, -⟩ := beginQueuedCommand_new h.tied hnodup hnew
    have hids : (s.register msg).ids = s.ids ++ [msg.id] := List.map_append
    refine ⟨?_, ?_, htied⟩
    · rw [hids]
      exact horder.trans (by rw [h.order, keepNewest_snoc])
    · rw [hids]
      apply h.admissible.snoc
      rw [← h.order, ← h.tied, hnew]
      simp
  · exact h.congr (ids_set_pc ht _) rfl fun _ => rfl
  · obtain ⟨horder, hsome, -, -⟩ := finishQueuedCommand_spec s.mem t.msg.id ack
    exact h.congr (ids_set_pc ht _) horder hsome
  · exact h.congr (ids_set_pc ht _) rfl fun _ => rfl

/-! ## One run at a time -/

/-- The lock is held by at most one task, and by none while it is free. -/
structure LockOk (s : Runner) : Prop where
  locked : ∀ (i : Nat) (t : Task), s.tasks[i]? = some t → t.holdsLock → s.locked
  exclusive : ∀ (i j : Nat) (t u : Task), s.tasks[i]? = some t → s.tasks[j]? = some u → t.holdsLock → u.holdsLock →
    i = j

theorem lockOk_init : LockOk Runner.init where
  locked := by simp [Runner.init]
  exclusive := by simp [Runner.init]

theorem getElem?_register {s : Runner} {msg : CmdCommandMsg} {i : Nat} {t : Task}
    (h : (s.register msg).tasks[i]? = some t) : s.tasks[i]? = some t ∨ i = s.tasks.length ∧
      t = ⟨msg, s.tasks.any fun t => t.msg.id == msg.id && t.ack.isNone, .waiting⟩ := by
  rcases Nat.lt_or_ge i s.tasks.length with hi | hi
  · left
    rw [← h]
    exact (List.getElem?_append_left hi).symm
  · right
    have hsingle := (List.getElem?_append_right hi).symm.trans h
    rw [List.getElem?_singleton] at hsingle
    split at hsingle
    · refine ⟨by omega, (Option.some.inj hsingle).symm⟩
    · contradiction

theorem lockOk_register {s : Runner} (h : LockOk s) (msg : CmdCommandMsg) :
    LockOk (s.register msg) := by
  have hold : ∀ (i : Nat) (t : Task), (s.register msg).tasks[i]? = some t → t.holdsLock →
      s.tasks[i]? = some t := by
    intro i t ht hlock
    rcases getElem?_register ht with ht | ⟨-, rfl⟩
    · exact ht
    · contradiction
  constructor
  · intro i t ht hlock
    exact h.locked i t (hold i t ht hlock) hlock
  · intro i j t u ht hu htl hul
    exact h.exclusive i j t u (hold i t ht htl) (hold j u hu hul) htl hul

theorem lockOk_step {s s' : Runner} {a : RunnerAction} (h : LockOk s)
    (hs : runnerStep s a = some s') : LockOk s' := by
  rcases runnerStep_cases hs with rfl | ⟨msg, -, rfl⟩ | ⟨i, t, ht, hpc, hfree, rfl⟩ |
    ⟨i, t, ack, ht, hpc, rfl⟩ | ⟨i, t, ack, ht, hpc, rfl⟩
  · exact h
  · exact lockOk_register h msg
  · -- the lock was free, so the task that takes it is the only one with it
    have hone : ∀ (j : Nat) (u : Task), (s.tasks.set i { t with pc := .running })[j]? = some u → u.holdsLock →
        j = i := by
      intro j u hu hlock
      rw [getElem?_set_pc ht] at hu
      split at hu
      · assumption
      · have := h.locked j u hu hlock
        rw [hfree] at this
        contradiction
    constructor
    · intro j u _ _
      rfl
    · intro j k u v hu hv hul hvl
      rw [hone j u hu hul, hone k v hv hvl]
  · have hold : t.holdsLock := by rw [Task.holdsLock, hpc]
    have hone : ∀ (j : Nat) (u : Task), (s.tasks.set i { t with pc := .finished ack })[j]? = some u →
        u.holdsLock → j = i := by
      intro j u hu hlock
      rw [getElem?_set_pc ht] at hu
      split at hu
      · assumption
      · exact h.exclusive j i u t hu ht hlock hold
    constructor
    · intro j u _ _
      exact h.locked i t ht hold
    · intro j k u v hu hv hul hvl
      rw [hone j u hu hul, hone k v hv hvl]
  · -- only the task that returns had the lock
    have hold : t.holdsLock := by rw [Task.holdsLock, hpc]
    have hnone : ∀ (j : Nat) (u : Task), (s.tasks.set i { t with pc := .returned ack })[j]? = some u →
        ¬ u.holdsLock := by
      intro j u hu hlock
      rw [getElem?_set_pc ht] at hu
      split at hu
      · rw [← Option.some.inj hu] at hlock
        contradiction
      · rename_i hne
        exact hne (h.exclusive j i u t hu ht hlock hold)
    constructor
    · intro j u hu hlock
      exact absurd hlock (hnone j u hu)
    · intro j k u v hu _ hul _
      exact absurd hul (hnone j u hu)

/-! ## A registration runs once -/

/-- The registrations whose commands started, in order. -/
def starts (events : List RunnerEvent) : List Nat :=
  events.filterMap fun
    | .started i => some i
    | _ => none

/-- The registered ids, in order. -/
def registrations (events : List RunnerEvent) : List String :=
  events.filterMap fun
    | .registered id => some id
    | _ => none

/-- The tasks that started are those that do not wait, once each. -/
structure StartOk (s : Runner) : Prop where
  nodup : (starts s.events).Nodup
  started : ∀ i ∈ starts s.events, ∃ t : Task, s.tasks[i]? = some t ∧ t.pc ≠ .waiting

theorem startOk_init : StartOk Runner.init where
  nodup := List.nodup_nil
  started := by simp [starts, Runner.init]

theorem startOk_step {s s' : Runner} {a : RunnerAction} (h : StartOk s)
    (hs : runnerStep s a = some s') : StartOk s' := by
  -- a task that does not wait never waits again
  have hset : ∀ (i : Nat) (t : Task) (pc : TaskPc), s.tasks[i]? = some t → pc ≠ .waiting → ∀ j ∈ starts s.events,
      ∃ u : Task, (s.tasks.set i { t with pc := pc })[j]? = some u ∧ u.pc ≠ .waiting := by
    intro i t pc ht hpc j hj
    rw [getElem?_set_pc ht]
    split
    · exact ⟨_, rfl, hpc⟩
    · exact h.started j hj
  rcases runnerStep_cases hs with rfl | ⟨msg, -, rfl⟩ | ⟨i, t, ht, hpc, -, rfl⟩ |
    ⟨i, t, ack, ht, -, rfl⟩ | ⟨i, t, ack, ht, -, rfl⟩
  · exact h
  · have hstarts : starts (s.register msg).events = starts s.events := by
      simp [starts, Runner.register]
    refine ⟨hstarts ▸ h.nodup, ?_⟩
    intro i hi
    rw [hstarts] at hi
    obtain ⟨t, ht, hpc⟩ := h.started i hi
    obtain ⟨hlt, -⟩ := List.getElem?_eq_some_iff.mp ht
    exact ⟨t, (List.getElem?_append_left hlt).trans ht, hpc⟩
  · have hstarts : starts (s.events ++ [.started i]) = starts s.events ++ [i] := by simp [starts]
    constructor
    · show (starts (s.events ++ [.started i])).Nodup
      rw [hstarts, List.nodup_append]
      refine ⟨h.nodup, List.nodup_singleton i, ?_⟩
      intro j hj k hk hjk
      obtain ⟨u, hu, hupc⟩ := h.started j hj
      rw [hjk, List.mem_singleton.mp hk, ht] at hu
      rw [← Option.some.inj hu] at hupc
      exact hupc hpc
    · intro j hj
      have hj : j ∈ starts (s.events ++ [.started i]) := hj
      rw [hstarts, List.mem_append, List.mem_singleton] at hj
      rcases hj with hj | rfl
      · exact hset i t .running ht (by simp) j hj
      · exact ⟨{ t with pc := .running }, by rw [getElem?_set_pc ht, if_pos rfl], by simp⟩
  · exact ⟨h.nodup, hset i t _ ht (by simp)⟩
  · exact ⟨h.nodup, hset i t _ ht (by simp)⟩

/-! ## The acknowledgement of a remembered id -/

/-- The task is the last registration of its id. -/
def IsLast (tasks : List Task) (i : Nat) (t : Task) : Prop :=
  tasks[i]? = some t ∧ ∀ (j : Nat) (u : Task), i < j → tasks[j]? = some u → u.msg.id ≠ t.msg.id

/-- Before a registration that overlaps with none of its id, the runs of the id are finished; and
while the id is remembered its entry is the acknowledgement of the last registration. -/
structure AcksOk (s : Runner) : Prop where
  earlier : ∀ (i : Nat) (t : Task), s.tasks[i]? = some t → t.overlaps = false →
    ∀ (j : Nat) (u : Task), j < i → s.tasks[j]? = some u → u.msg.id = t.msg.id → u.ack.isSome
  last : ∀ (i : Nat) (t : Task), IsLast s.tasks i t → t.overlaps = false →
    ∀ v, s.mem.state t.msg.id = some v → v = t.ack

theorem acksOk_init : AcksOk Runner.init where
  earlier := by simp [Runner.init]
  last := by simp [IsLast, Runner.init]

theorem acksOk_register {s : Runner} {msg : CmdCommandMsg} (hmem : MemOk s) (h : AcksOk s)
    (hnew : s.mem.state msg.id = none) : AcksOk (s.register msg) := by
  have hnodup : s.mem.order.Nodup := by
    rw [hmem.order]
    exact hmem.admissible.nodup_newest
  obtain ⟨-, -, -, hself, hother⟩ := beginQueuedCommand_new hmem.tied hnodup hnew
  have hlt : ∀ (j : Nat) (u : Task), s.tasks[j]? = some u → j < s.tasks.length := by
    intro j u hu
    exact (List.getElem?_eq_some_iff.mp hu).1
  constructor
  · intro i t ht hoverlaps j u hji hu hid
    rcases getElem?_register ht with ht | ⟨hi, ht⟩
    · rcases getElem?_register hu with hu | ⟨hj, -⟩
      · exact h.earlier i t ht hoverlaps j u hji hu hid
      · have := hlt i t ht
        omega
    · rcases getElem?_register hu with hu | ⟨hj, -⟩
      · -- the new registration looked at every earlier run of the id
        rw [ht] at hoverlaps hid
        have hu := List.mem_of_getElem? hu
        have := List.any_eq_false.mp hoverlaps u hu
        rw [Option.isSome_iff_ne_none]
        simpa [hid] using this
      · omega
  · rintro i t ⟨ht, hlast⟩ hoverlaps v hv
    rcases getElem?_register ht with ht' | ⟨hi, rfl⟩
    · have hnewest : (s.register msg).tasks[s.tasks.length]? = some
          ⟨msg, s.tasks.any fun t => t.msg.id == msg.id && t.ack.isNone, .waiting⟩ :=
        List.getElem?_concat_length
      have hne := hlast _ _ (hlt i t ht') hnewest
      refine h.last i t ⟨ht', ?_⟩ hoverlaps v (hother _ (Ne.symm hne) v hv)
      intro j u hij hu
      exact hlast j u hij ((List.getElem?_append_left (hlt j u hu)).trans hu)
    · rw [show (s.register msg).mem.state msg.id = some none from hself] at hv
      exact (Option.some.inj hv).symm

theorem isLast_of_set_pc {tasks : List Task} {i j : Nat} {t u : Task} {pc : TaskPc}
    (ht : tasks[i]? = some t) (hji : j ≠ i)
    (h : IsLast (tasks.set i { t with pc := pc }) j u) : IsLast tasks j u := by
  obtain ⟨hu, hlast⟩ := h
  rw [getElem?_set_pc ht, if_neg hji] at hu
  refine ⟨hu, ?_⟩
  intro k v hjk hv
  have hk := getElem?_set_pc ht pc k
  by_cases hki : k = i
  · rw [if_pos hki] at hk
    rw [hki, ht] at hv
    rw [← Option.some.inj hv]
    exact hlast k { t with pc := pc } hjk hk
  · rw [if_neg hki] at hk
    exact hlast k v hjk (hk.trans hv)

theorem acksOk_set_pc {s s' : Runner} {i : Nat} {t : Task} {pc : TaskPc} (h : AcksOk s)
    (ht : s.tasks[i]? = some t) (htasks : s'.tasks = s.tasks.set i { t with pc := pc })
    (hack : t.ack.isSome → (Task.ack { t with pc := pc }).isSome)
    (hself : IsLast s'.tasks i { t with pc := pc } → t.overlaps = false →
      ∀ v, s'.mem.state t.msg.id = some v → v = Task.ack { t with pc := pc })
    (hother : ∀ (j : Nat) (u : Task), j ≠ i → IsLast s.tasks j u → u.overlaps = false →
      s'.mem.state u.msg.id = s.mem.state u.msg.id) : AcksOk s' := by
  have hget := getElem?_set_pc ht pc
  constructor
  · rw [htasks]
    intro j u hu hoverlaps k v hkj hv hid
    -- the ids and the order are those of `s`
    obtain ⟨u', hu', hoverlaps', hid'⟩ : ∃ u' : Task, s.tasks[j]? = some u' ∧
        u'.overlaps = false ∧ u'.msg.id = u.msg.id := by
      rw [hget] at hu
      split at hu
      · rename_i hji
        rw [← Option.some.inj hu] at hoverlaps ⊢
        exact ⟨t, hji ▸ ht, hoverlaps, rfl⟩
      · exact ⟨u, hu, hoverlaps, rfl⟩
    rw [hget] at hv
    split at hv
    · rename_i hki
      rw [← Option.some.inj hv] at hid ⊢
      exact hack (h.earlier j u' hu' hoverlaps' i t (hki ▸ hkj) ht (hid.trans hid'.symm))
    · exact h.earlier j u' hu' hoverlaps' k v hkj hv (hid.trans hid'.symm)
  · intro j u hlast hoverlaps v hv
    by_cases hji : j = i
    · have hu := hlast.1
      rw [htasks, hget, if_pos hji] at hu
      rw [← Option.some.inj hu] at hlast hoverlaps hv ⊢
      exact hself (hji ▸ hlast) hoverlaps v hv
    · rw [htasks] at hlast
      have hlast := isLast_of_set_pc ht hji hlast
      rw [hother j u hji hlast hoverlaps] at hv
      exact h.last j u hlast hoverlaps v hv

theorem isLast_self_of_set_pc {tasks : List Task} {i : Nat} {t : Task} {pc : TaskPc}
    (ht : tasks[i]? = some t) (h : IsLast (tasks.set i { t with pc := pc }) i { t with pc := pc }) :
    IsLast tasks i t := by
  refine ⟨ht, ?_⟩
  intro j u hij hu
  have hj := getElem?_set_pc ht pc j
  rw [if_neg (by omega)] at hj
  exact h.2 j u hij (hj.trans hu)

theorem acksOk_step {s s' : Runner} {a : RunnerAction} (hmem : MemOk s) (h : AcksOk s)
    (hs : runnerStep s a = some s') : AcksOk s' := by
  rcases runnerStep_cases hs with rfl | ⟨msg, hnew, rfl⟩ | ⟨i, t, ht, hpc, -, rfl⟩ |
    ⟨i, t, ack, ht, hpc, rfl⟩ | ⟨i, t, ack, ht, hpc, rfl⟩
  · exact h
  · exact acksOk_register hmem h hnew
  · have hack : t.ack = none := by rw [Task.ack, hpc]
    refine acksOk_set_pc h ht rfl ?_ ?_ fun _ _ _ _ _ => rfl
    · simp [hack]
    · intro hlast hoverlaps v hv
      exact (h.last i t (isLast_self_of_set_pc ht hlast) hoverlaps v hv).trans hack
  · have hack : t.ack = none := by rw [Task.ack, hpc]
    obtain ⟨-, -, hne, hself⟩ := finishQueuedCommand_spec s.mem t.msg.id ack
    refine acksOk_set_pc h ht rfl ?_ ?_ ?_
    · simp [hack]
    · intro _ _ v hv
      exact hself v hv
    · intro j u hji hlast hoverlaps
      refine hne _ ?_
      intro hid
      -- a later registration of the id would have overlapped with this run
      have hlt : i < j := by
        by_contra hle
        exact hlast.2 i t (by omega) ht hid.symm
      have := h.earlier j u hlast.1 hoverlaps i t hlt ht hid.symm
      rw [hack] at this
      contradiction
  · have hack : t.ack = some ack := by rw [Task.ack, hpc]
    refine acksOk_set_pc h ht rfl (fun _ => rfl) ?_ fun _ _ _ _ _ => rfl
    intro hlast hoverlaps v hv
    exact (h.last i t (isLast_self_of_set_pc ht hlast) hoverlaps v hv).trans hack

theorem exists_isLast {tasks : List Task} {id : String} (h : id ∈ tasks.map (·.msg.id)) :
    ∃ i t, IsLast tasks i t ∧ t.msg.id = id := by
  induction tasks using List.reverseRecOn with
  | nil => contradiction
  | append_singleton tasks u ih =>
    have hu : (tasks ++ [u])[tasks.length]? = some u := List.getElem?_concat_length
    by_cases hid : u.msg.id = id
    · refine ⟨tasks.length, u, ⟨hu, ?_⟩, hid⟩
      intro j v hj hv
      obtain ⟨hlt, -⟩ := List.getElem?_eq_some_iff.mp hv
      rw [List.length_append, List.length_singleton] at hlt
      omega
    · have hmem : id ∈ tasks.map (·.msg.id) := by
        rw [List.map_append, List.mem_append] at h
        refine h.resolve_right ?_
        intro hsingle
        exact hid (List.mem_singleton.mp hsingle).symm
      obtain ⟨i, t, ⟨ht, hlast⟩, htid⟩ := ih hmem
      obtain ⟨hlt, -⟩ := List.getElem?_eq_some_iff.mp ht
      refine ⟨i, t, ⟨(List.getElem?_append_left hlt).trans ht, ?_⟩, htid⟩
      intro j v hij hv
      rcases Nat.lt_or_ge j tasks.length with hj | hj
      · exact hlast j v hij ((List.getElem?_append_left hj).symm.trans hv)
      · have hv := (List.getElem?_append_right hj).symm.trans hv
        rw [List.getElem?_singleton] at hv
        split at hv
        · rw [← Option.some.inj hv, htid]
          exact hid
        · contradiction

/-! ## Every run -/

/-- For every sequence of command frames and every order of the runs: each registration is executed
at most once, and between the registrations of two executions of an id at least `queuedCmdMemory`
other ids were registered; at most one command runs at a time; and the frame of an id that is still
remembered registers nothing and is answered with the final acknowledgement of its last registration,
or not while that has none, unless an earlier run of the id was still going at that registration. -/
theorem runner_spec (as : List RunnerAction) (s : Runner)
    (h : run runnerStep Runner.init as = some s) :
    ((starts s.events).Nodup ∧ ∀ i ∈ starts s.events, i < s.tasks.length) ∧
    (∀ i j id, i < j → s.ids[i]? = some id → s.ids[j]? = some id →
      queuedCmdMemory ≤ (((s.ids.take j).drop (i + 1)).toFinset.erase id).card) ∧
    (∀ (i j : Nat) (t u : Task), s.tasks[i]? = some t → s.tasks[j]? = some u → t.holdsLock →
      u.holdsLock → i = j) ∧
    ∀ msg : CmdCommandMsg, msg.id ≠ "" → msg.id.utf8ByteSize ≤ 64 →
      (s.mem.state msg.id).isSome → ∃ i t, IsLast s.tasks i t ∧ t.msg.id = msg.id ∧
        (t.overlaps = false → startQueuedCommand s (some msg) = (t.ack, s)) := by
  have hmem := run_preserves (P := MemOk) (fun _ _ _ => memOk_step) memOk_init h
  have hlock := run_preserves (P := LockOk) (fun _ _ _ => lockOk_step) lockOk_init h
  have hstart := run_preserves (P := StartOk) (fun _ _ _ => startOk_step) startOk_init h
  have hacks := (run_preserves (P := fun s => MemOk s ∧ AcksOk s)
    (fun _ _ _ h hs => ⟨memOk_step h.1 hs, acksOk_step h.1 h.2 hs⟩)
    ⟨memOk_init, acksOk_init⟩ h).2
  refine ⟨⟨hstart.nodup, ?_⟩, ?_, hlock.exclusive, ?_⟩
  · intro i hi
    obtain ⟨t, ht, -⟩ := hstart.started i hi
    exact (List.getElem?_eq_some_iff.mp ht).1
  · intro i j id hij hi hj
    exact hmem.admissible.spaced_getElem? hi hj hij
  · intro msg hne hlen hseen
    obtain ⟨final, hfinal⟩ := Option.isSome_iff_exists.mp hseen
    have hids : msg.id ∈ s.ids := by
      have horder := (hmem.tied msg.id).mp hseen
      rw [hmem.order] at horder
      exact List.mem_of_mem_drop horder
    obtain ⟨i, t, hlast, hid⟩ := exists_isLast hids
    refine ⟨i, t, hlast, hid, ?_⟩
    intro hoverlaps
    have hack := hacks.last i t hlast hoverlaps final (hid ▸ hfinal)
    have hvalid : ¬ (msg.id = "" ∨ msg.id.utf8ByteSize > 64) := by
      rintro (hempty | hlong)
      · exact hne hempty
      · omega
    rw [startQueuedCommand, if_neg hvalid, beginQueuedCommand_seen hfinal, hack]
    rfl

/-- A restart command of an id. -/
def restartCommand (id : String) : CmdCommandMsg := ⟨id, "restart", []⟩

/-- The frames of commands with the ids `n`, `n + 1`, up to `m`. -/
def restartFrames (n m : Nat) : List RunnerAction :=
  (List.range' n (m - n)).map fun k => .frame (some (restartCommand (toString k)))

/-- Every operation succeeds. -/
def quietEnv : CommandEnv := ⟨.ok none, fun _ => .ok ⟨0, 0, 0, 0⟩, .ok (), .ok (), id⟩

/-- A restart cannot be prepared. -/
def brokenEnv : CommandEnv := { quietEnv with prepareRestart := .error "no executable" }

/-- The command `0` waits while 63 others are registered; one more after its run makes room for it
again. -/
def closeRun : List RunnerAction :=
  restartFrames 0 64 ++ [RunnerAction.lock 0, .finish 0 quietEnv, .unlock 0] ++ restartFrames 64 65 ++
    [RunnerAction.frame (some (restartCommand "0")), .lock 65]

/-- The command `0` is forgotten and registered again while it runs. -/
def overlapRun : List RunnerAction :=
  [RunnerAction.frame (some (restartCommand "0")), .lock 0] ++ restartFrames 1 65 ++
    [RunnerAction.frame (some (restartCommand "0")), .finish 0 brokenEnv]

theorem runner_spec_closeRun : ∃ s, run runnerStep Runner.init closeRun = some s ∧
    starts s.events = [0, 65] ∧ (starts s.events).Nodup := by
  obtain ⟨s, hs, hstarts⟩ := Option.map_eq_some_iff.mp
    (show (run runnerStep Runner.init closeRun).map (fun s => starts s.events) = some [0, 65] by
      decide +kernel)
  exact ⟨s, hs, hstarts, (runner_spec closeRun s hs).1.1⟩

/-- Only one other id is registered between two executions of `0`; and a frame of `0` is answered
with the acknowledgement of its earlier run, while that of its registration still waits. -/
theorem executions_close :
    (¬ ∀ as s, run runnerStep Runner.init as = some s → ∀ pre mid post i j id,
      s.events = pre ++ .started i :: (mid ++ .started j :: post) → s.ids[i]? = some id →
        s.ids[j]? = some id → queuedCmdMemory ≤ ((registrations mid).toFinset.erase id).card) ∧
    ¬ ∀ as s, run runnerStep Runner.init as = some s → ∀ (msg : CmdCommandMsg) i t,
      (s.mem.state msg.id).isSome → IsLast s.tasks i t → t.msg.id = msg.id →
        (startQueuedCommand s (some msg)).1 = t.ack := by
  constructor
  · intro h
    have hrun : (run runnerStep Runner.init closeRun).map
        (fun s => (s.events.drop 64, s.ids[0]?, s.ids[65]?)) = some
          ([RunnerEvent.started 0, .registered "64", .registered "0", .started 65], some "0", some "0") := by
      decide +kernel
    obtain ⟨s, hs, hend⟩ := Option.map_eq_some_iff.mp hrun
    obtain ⟨hevents, hid⟩ := Prod.mk.inj hend
    obtain ⟨hfirst, hsecond⟩ := Prod.mk.inj hid
    have hsplit : s.events = s.events.take 64 ++ RunnerEvent.started 0 ::
        ([RunnerEvent.registered "64", .registered "0"] ++ [RunnerEvent.started 65]) := by
      conv_lhs => rw [← List.take_append_drop 64 s.events, hevents]
      rfl
    have := h closeRun s hs _ _ _ 0 65 "0" hsplit hfirst hsecond
    exact absurd this (by decide)
  · intro h
    have hrun : (run runnerStep Runner.init overlapRun).map (fun s => (s.tasks.length,
        s.tasks[65]?.map (fun t => (t.msg.id, t.ack)), (s.mem.state "0").isSome,
          (startQueuedCommand s (some (restartCommand "0"))).1.isSome)) =
        some (66, some ("0", none), true, true) := by decide +kernel
    obtain ⟨s, hs, hend⟩ := Option.map_eq_some_iff.mp hrun
    obtain ⟨hlen, hend⟩ := Prod.mk.inj hend
    obtain ⟨htask, hend⟩ := Prod.mk.inj hend
    obtain ⟨hseen, hanswer⟩ := Prod.mk.inj hend
    obtain ⟨t, ht, hpair⟩ := Option.map_eq_some_iff.mp htask
    obtain ⟨hid, hack⟩ := Prod.mk.inj hpair
    have hlast : IsLast s.tasks 65 t := by
      refine ⟨ht, ?_⟩
      intro j u hj hu
      obtain ⟨hlt, -⟩ := List.getElem?_eq_some_iff.mp hu
      omega
    have hsame := h overlapRun s hs (restartCommand "0") 65 t hseen hlast hid
    rw [hsame, hack] at hanswer
    exact Bool.noConfusion hanswer

end Obliguard.Agent

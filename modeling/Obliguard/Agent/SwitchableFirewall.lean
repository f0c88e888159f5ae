import Mathlib.Data.List.Nodup
import Mathlib.Logic.Function.Basic
import Obliguard.Lib.Runs

/-!
# The switch of the firewall backend

`switchableFirewall` of `agent/firewall.go`: requests of a preference, the goroutines that apply it and
the calls that write to the backend, in any interleaving. What is done under `reqMu` or `curMu` is one
step; `opMu` is held over several steps, by a switch or by a write (`Exclusive`).

`preference_protocol` is the main result.
-/

namespace Obliguard.Agent

open Runs

/-! ## A lock -/

/-- The holder of a lock is the one thread inside. -/
def Exclusive {τ : Type} (holder : Option τ) (inside : τ → Prop) : Prop := ∀ t, inside t ↔ holder = some t

section lock
variable {τ : Type} {holder : Option τ} {inside inside' : τ → Prop} {t u : τ}

theorem Exclusive.unique (h : Exclusive holder inside) (ht : inside t) (hu : inside u) : t = u :=
  Option.some.inj (((h t).mp ht).symm.trans ((h u).mp hu))

theorem Exclusive.keep (h : Exclusive holder inside) (hne : ∀ u, u ≠ t → (inside' u ↔ inside u))
    (ht : inside' t ↔ inside t) : Exclusive holder inside' := by
  intro u
  by_cases hu : u = t
  · rw [hu, ht, h t]
  · rw [hne u hu, h u]

theorem Exclusive.enter (h : Exclusive none inside) (hne : ∀ u, u ≠ t → (inside' u ↔ inside u))
    (ht : inside' t) : Exclusive (some t) inside' := by
  intro u
  by_cases hu : u = t
  · rw [hu]
    exact iff_of_true ht rfl
  · rw [hne u hu, h u]
    exact iff_of_false nofun fun heq => hu (Option.some.inj heq).symm

theorem Exclusive.leave (h : Exclusive holder inside) (hin : inside t)
    (hne : ∀ u, u ≠ t → (inside' u ↔ inside u)) (ht : ¬ inside' t) : Exclusive none inside' := by
  intro u
  by_cases hu : u = t
  · rw [hu]
    exact iff_of_false ht nofun
  · rw [hne u hu]
    exact iff_of_false (fun hu' => hu (h.unique hu' hin)) nofun

end lock

/-! ## Backends and preferences -/

/-- A preference, `normalizeFirewallBackend`. -/
inductive FwPreference
  | auto
  | wfp
  | netsh
deriving DecidableEq

/-- `kindOf`. -/
inductive BackendKind
  | wfp
  | netsh
  | none
deriving DecidableEq

/-- `firewallKindFor`. -/
def firewallKindFor (pref : FwPreference) : BackendKind := if pref = .netsh then .netsh else .wfp

/-- A backend that was built. -/
structure Backend where
  id : Nat
  kind : BackendKind
deriving DecidableEq

/-! ## The threads -/

/-- Where a goroutine of `switchLoop` stands. -/
inductive LoopPc
  /-- Not started, or returned. -/
  | ended
  /-- At the head of the loop. -/
  | check
  /-- At the head of `applyPreference`. -/
  | apply (pref : FwPreference)
  /-- It holds `opMu`. -/
  | locked (pref : FwPreference)
  | migrating (pref : FwPreference) (old : Backend)
  | migrated (pref : FwPreference) (old nw : Backend)
  /-- At the end of `applyPreference`. -/
  | unlocking (pref : FwPreference)
  /-- `applyPreference` has returned. -/
  | record (pref : FwPreference)
deriving DecidableEq

/-- In `applyPreference`. -/
def LoopPc.Applying : LoopPc → Prop
  | .apply _ | .locked _ | .migrating _ _ | .migrated _ _ _ | .unlocking _ => True
  | .ended | .check | .record _ => False

def LoopPc.HoldsLock : LoopPc → Prop
  | .locked _ | .migrating _ _ | .migrated _ _ _ | .unlocking _ => True
  | .ended | .check | .apply _ | .record _ => False

/-- In the migration. -/
def LoopPc.Switching : LoopPc → Prop
  | .migrating _ _ | .migrated _ _ _ => True
  | .ended | .check | .apply _ | .locked _ | .unlocking _ | .record _ => False

/-- Where a caller of `BanIP`, `UnbanIP`, `Flush` or `ApplyRateLimits` stands; `ω` are the calls. -/
inductive CallPc (ω : Type)
  | idle
  | waiting (call : ω)
  /-- It holds `opMu`. -/
  | locked (call : ω)
  | executing (call : ω) (backend : Backend)

def CallPc.HoldsLock {ω : Type} : CallPc ω → Prop
  | .locked _ | .executing _ _ => True
  | .idle | .waiting _ => False

inductive Thread
  | loop (i : Nat)
  | writer (j : Nat)
deriving DecidableEq

structure SwitchableFirewall (ω : Type) where
  opMu : Option Thread
  cur : Backend
  want : FwPreference
  applied : FwPreference
  running : Bool
  /-- The channel `idle`; channels are numbered as they are made. -/
  idle : Nat
  /-- The channels closed, in the order in which they were. -/
  closed : List Nat
  loops : Nat → LoopPc
  /-- How many goroutines were started. -/
  started : Nat
  writers : Nat → CallPc ω
  /-- How many backends were built. -/
  built : Nat
  /-- The backends that a switch has replaced. -/
  replaced : List Nat

/-- `newSwitchableFirewall`. -/
def newSwitchableFirewall (ω : Type) (kind : BackendKind) (pref : FwPreference) :
    SwitchableFirewall ω where
  opMu := none
  cur := ⟨0, kind⟩
  want := pref
  applied := pref
  running := false
  idle := 0
  closed := [0]
  loops := fun _ => .ended
  started := 0
  writers := fun _ => .idle
  built := 1
  replaced := []

section steps
variable {ω : Type}

def SwitchableFirewall.setLoop (s : SwitchableFirewall ω) (i : Nat) (pc : LoopPc) :
    SwitchableFirewall ω := { s with loops := Function.update s.loops i pc }

def SwitchableFirewall.setWriter (s : SwitchableFirewall ω) (j : Nat) (pc : CallPc ω) :
    SwitchableFirewall ω := { s with writers := Function.update s.writers j pc }

/-- `requestPreference`. -/
def requestPreference (s : SwitchableFirewall ω) (pref : FwPreference) : SwitchableFirewall ω :=
  let s := { s with want := pref }
  if s.running ∨ s.want = s.applied then s
  else { s.setLoop s.started .check with
    running := true
    idle := s.idle + 1
    started := s.started + 1 }

inductive SwitchAct (ω : Type)
  | request (pref : FwPreference)
  /-- The next step of goroutine `i`; where that is the migration, `built` is the kind of the backend
  that it returns, `none` for an error. -/
  | loop (i : Nat) (built : Option BackendKind)
  /-- The next step of writer `j`; where it is idle, it makes the call. -/
  | write (j : Nat) (call : ω)

/-- The next step of `switchLoop` and `applyPreference`. -/
def loopStep (s : SwitchableFirewall ω) (i : Nat) (built : Option BackendKind) :
    Option (SwitchableFirewall ω) :=
  match s.loops i with
  | .ended => none
  | .check =>
    if s.want = s.applied then some { s.setLoop i .ended with
      running := false
      closed := s.closed ++ [s.idle] }
    else some (s.setLoop i (.apply s.want))
  | .apply pref =>
    if s.opMu = none then some { s.setLoop i (.locked pref) with opMu := some (.loop i) } else none
  | .locked pref =>
    if s.cur.kind = firewallKindFor pref then some (s.setLoop i (.unlocking pref))
    else some (s.setLoop i (.migrating pref s.cur))
  | .migrating pref old =>
    match built with
    | none => some (s.setLoop i (.unlocking pref))
    | some kind => some { s.setLoop i (.migrated pref old ⟨s.built, kind⟩) with built := s.built + 1 }
  | .migrated pref old nw => some { s.setLoop i (.unlocking pref) with
      cur := nw
      replaced := s.replaced ++ [old.id] }
  | .unlocking pref => some { s.setLoop i (.record pref) with opMu := none }
  | .record pref => some { s.setLoop i .check with applied := pref }

/-- The next step of a call that writes. -/
def writerStep (s : SwitchableFirewall ω) (j : Nat) (call : ω) : Option (SwitchableFirewall ω) :=
  match s.writers j with
  | .idle => some (s.setWriter j (.waiting call))
  | .waiting call =>
    if s.opMu = none then some { s.setWriter j (.locked call) with opMu := some (.writer j) } else none
  | .locked call => some (s.setWriter j (.executing call s.cur))
  | .executing _ _ => some { s.setWriter j .idle with opMu := none }

def switchStep (s : SwitchableFirewall ω) : SwitchAct ω → Option (SwitchableFirewall ω)
  | .request pref => some (requestPreference s pref)
  | .loop i built => loopStep s i built
  | .write j call => writerStep s j call

/-- The preference requested last, from one given at the start. -/
def lastRequested (pref : FwPreference) : List (SwitchAct ω) → FwPreference
  | [] => pref
  | .request p :: acts => lastRequested p acts
  | _ :: acts => lastRequested pref acts

end steps

/-! ## The invariant -/

section invariant
variable {ω : Type} {s s' : SwitchableFirewall ω} {i j : Nat} {pc : LoopPc}

/-- The thread holds `opMu`, by where it stands. -/
def SwitchableFirewall.Inside (s : SwitchableFirewall ω) : Thread → Prop
  | .loop i => (s.loops i).HoldsLock
  | .writer j => (s.writers j).HoldsLock

/-- What `reqMu` guards. -/
def SwitchableFirewall.requests (s : SwitchableFirewall ω) :
    FwPreference × FwPreference × Bool × Nat × List Nat × Nat :=
  (s.want, s.applied, s.running, s.idle, s.closed, s.started)

/-- The backend, and those before it. -/
def SwitchableFirewall.backends (s : SwitchableFirewall ω) : Backend × Nat × List Nat :=
  (s.cur, s.built, s.replaced)

structure RequestInv (s : SwitchableFirewall ω) : Prop where
  /-- The only goroutine that runs is the one started last. -/
  live : ∀ i, s.loops i ≠ .ended ↔ s.running = true ∧ i + 1 = s.started
  busy : s.running = true → 0 < s.started
  settled : s.running = false → s.want = s.applied
  /-- Each start of a goroutine makes a channel. -/
  channel : s.idle = s.started
  closed_iff : ∀ c, c ∈ s.closed ↔ c < s.idle ∨ (c = s.idle ∧ s.running = false)
  closed_nodup : s.closed.Nodup

structure BackendInv (s : SwitchableFirewall ω) : Prop where
  migrating : ∀ i pref old, s.loops i = .migrating pref old → old = s.cur
  migrated : ∀ i pref old nw, s.loops i = .migrated pref old nw →
    old = s.cur ∧ nw.id < s.built ∧ nw.id ≠ s.cur.id ∧ nw.id ∉ s.replaced
  executing : ∀ j call b, s.writers j = .executing call b → b = s.cur
  cur_lt : s.cur.id < s.built
  replaced_lt : ∀ b ∈ s.replaced, b < s.built
  cur_new : s.cur.id ∉ s.replaced

structure SwitchInv (s : SwitchableFirewall ω) : Prop where
  requests : RequestInv s
  lock : Exclusive s.opMu s.Inside
  backends : BackendInv s

theorem switchInv_new (kind : BackendKind) (pref : FwPreference) :
    SwitchInv (newSwitchableFirewall ω kind pref) where
  requests := by
    refine ⟨fun i => ?_, nofun, fun _ => rfl, rfl, fun c => ?_, List.nodup_singleton 0⟩
    · simp [newSwitchableFirewall]
    · simp [newSwitchableFirewall]
  lock := by
    intro t
    refine iff_of_false (fun h => ?_) nofun
    cases t with
    | loop i => exact h
    | writer j => exact h
  backends := by
    refine ⟨?_, ?_, ?_, Nat.one_pos, fun b hb => absurd hb List.not_mem_nil, List.not_mem_nil⟩
    · intro i pref old h
      contradiction
    · intro i pref old nw h
      contradiction
    · intro j call b h
      contradiction

/-! ### Steps of the threads -/

theorem inside_setLoop (t : Thread) (h : t ≠ .loop i) : (s.setLoop i pc).Inside t ↔ s.Inside t := by
  cases t with
  | loop k =>
    have hk : k ≠ i := fun heq => h (congrArg Thread.loop heq)
    show (Function.update s.loops i pc k).HoldsLock ↔ (s.loops k).HoldsLock
    rw [Function.update_of_ne hk]
  | writer j => exact Iff.rfl

theorem inside_setLoop_self : (s.setLoop i pc).Inside (.loop i) ↔ pc.HoldsLock := by
  show (Function.update s.loops i pc i).HoldsLock ↔ pc.HoldsLock
  rw [Function.update_self]

theorem inside_setWriter {w : CallPc ω} (t : Thread) (h : t ≠ .writer j) :
    (s.setWriter j w).Inside t ↔ s.Inside t := by
  cases t with
  | loop i => exact Iff.rfl
  | writer k =>
    have hk : k ≠ j := fun heq => h (congrArg Thread.writer heq)
    show (Function.update s.writers j w k).HoldsLock ↔ (s.writers k).HoldsLock
    rw [Function.update_of_ne hk]

theorem inside_setWriter_self {w : CallPc ω} : (s.setWriter j w).Inside (.writer j) ↔ w.HoldsLock := by
  show (Function.update s.writers j w j).HoldsLock ↔ w.HoldsLock
  rw [Function.update_self]

theorem RequestInv.congr (h : RequestInv s) (hloops : s'.loops = s.loops)
    (hrequests : s'.requests = s.requests) : RequestInv s' := by
  simp only [SwitchableFirewall.requests, Prod.mk.injEq] at hrequests
  obtain ⟨hwant, happlied, hrunning, hidle, hclosed, hstarted⟩ := hrequests
  refine ⟨?_, ?_, ?_, ?_, ?_, ?_⟩
  · rw [hloops, hrunning, hstarted]
    exact h.live
  · rw [hrunning, hstarted]
    exact h.busy
  · rw [hrunning, hwant, happlied]
    exact h.settled
  · rw [hidle, hstarted]
    exact h.channel
  · rw [hclosed, hidle, hrunning]
    exact h.closed_iff
  · rw [hclosed]
    exact h.closed_nodup

theorem BackendInv.congr (h : BackendInv s) (hloops : s'.loops = s.loops)
    (hwriters : s'.writers = s.writers) (hbackends : s'.backends = s.backends) : BackendInv s' := by
  simp only [SwitchableFirewall.backends, Prod.mk.injEq] at hbackends
  obtain ⟨hcur, hbuilt, hreplaced⟩ := hbackends
  refine ⟨?_, ?_, ?_, ?_, ?_, ?_⟩
  · rw [hloops, hcur]
    exact h.migrating
  · rw [hloops, hcur, hbuilt, hreplaced]
    exact h.migrated
  · rw [hwriters, hcur]
    exact h.executing
  · rw [hcur, hbuilt]
    exact h.cur_lt
  · rw [hreplaced, hbuilt]
    exact h.replaced_lt
  · rw [hcur, hreplaced]
    exact h.cur_new

theorem RequestInv.setLoop (h : RequestInv s) (pc : LoopPc) (hi : s.loops i ≠ .ended) (hpc : pc ≠ .ended) :
    RequestInv (s.setLoop i pc) where
  live := by
    intro k
    refine Iff.trans ?_ (h.live k)
    show Function.update s.loops i pc k ≠ .ended ↔ s.loops k ≠ .ended
    by_cases hk : k = i
    · rw [hk, Function.update_self]
      exact iff_of_true hpc hi
    · rw [Function.update_of_ne hk]
  busy := h.busy
  settled := h.settled
  channel := h.channel
  closed_iff := h.closed_iff
  closed_nodup := h.closed_nodup

theorem BackendInv.setLoop (h : BackendInv s) (pc : LoopPc) (hpc : ¬ pc.Switching) :
    BackendInv (s.setLoop i pc) where
  migrating := by
    intro k pref old hk
    change Function.update s.loops i pc k = _ at hk
    by_cases hki : k = i
    · rw [hki, Function.update_self] at hk
      exact absurd (by rw [hk]; trivial) hpc
    · rw [Function.update_of_ne hki] at hk
      exact h.migrating k pref old hk
  migrated := by
    intro k pref old nw hk
    change Function.update s.loops i pc k = _ at hk
    by_cases hki : k = i
    · rw [hki, Function.update_self] at hk
      exact absurd (by rw [hk]; trivial) hpc
    · rw [Function.update_of_ne hki] at hk
      exact h.migrated k pref old nw hk
  executing := h.executing
  cur_lt := h.cur_lt
  replaced_lt := h.replaced_lt
  cur_new := h.cur_new

theorem BackendInv.setWriter {w : CallPc ω} (h : BackendInv s)
    (hw : ∀ call b, w = .executing call b → b = s.cur) : BackendInv (s.setWriter j w) where
  migrating := h.migrating
  migrated := h.migrated
  executing := by
    intro k call b hk
    change Function.update s.writers j w k = _ at hk
    by_cases hkj : k = j
    · rw [hkj, Function.update_self] at hk
      exact hw call b hk
    · rw [Function.update_of_ne hkj] at hk
      exact h.executing k call b hk
  cur_lt := h.cur_lt
  replaced_lt := h.replaced_lt
  cur_new := h.cur_new

theorem RequestInv.finish (h : RequestInv s) (hi : s.loops i ≠ .ended) (hwant : s.want = s.applied) :
    RequestInv { s.setLoop i .ended with running := false, closed := s.closed ++ [s.idle] } := by
  have hrunning : s.running = true := ((h.live i).mp hi).1
  have hclosed : ∀ c, c ∈ s.closed ↔ c < s.idle := by
    intro c
    rw [h.closed_iff c, hrunning]
    simp
  refine ⟨fun k => ?_, nofun, fun _ => hwant, h.channel, fun c => ?_, ?_⟩
  · refine iff_of_false (fun hk => ?_) fun hk => Bool.noConfusion hk.1
    change Function.update s.loops i .ended k ≠ .ended at hk
    by_cases hki : k = i
    · rw [hki, Function.update_self] at hk
      exact hk rfl
    · rw [Function.update_of_ne hki] at hk
      have hk' := ((h.live k).mp hk).2
      have hi' := ((h.live i).mp hi).2
      omega
  · show c ∈ s.closed ++ [s.idle] ↔ c < s.idle ∨ (c = s.idle ∧ false = false)
    rw [List.mem_append, List.mem_singleton, hclosed c]
    simp
  · refine List.nodup_append.mpr ⟨h.closed_nodup, List.nodup_singleton _, ?_⟩
    rintro c hc d hd rfl
    rw [List.mem_singleton] at hd
    have hlt := (hclosed c).mp hc
    omega

theorem RequestInv.start {pref : FwPreference} (h : RequestInv s) (hrunning : s.running = false) :
    RequestInv { ({ s with want := pref } : SwitchableFirewall ω).setLoop s.started .check with
      running := true, idle := s.idle + 1, started := s.started + 1 } := by
  refine ⟨fun k => ?_, fun _ => Nat.succ_pos _, fun hfalse => Bool.noConfusion hfalse,
    congrArg (· + 1) h.channel, fun c => ?_, h.closed_nodup⟩
  · show Function.update s.loops s.started .check k ≠ .ended ↔ true = true ∧ k + 1 = s.started + 1
    by_cases hk : k = s.started
    · rw [hk, Function.update_self]
      exact iff_of_true nofun ⟨rfl, rfl⟩
    · rw [Function.update_of_ne hk, h.live k, hrunning]
      refine iff_of_false (fun hk' => Bool.noConfusion hk'.1) ?_
      omega
  · show c ∈ s.closed ↔ c < s.idle + 1 ∨ (c = s.idle + 1 ∧ true = false)
    rw [h.closed_iff c, hrunning]
    simp only [and_true, Bool.true_eq_false, and_false, or_false]
    omega

theorem SwitchInv.alone (h : SwitchInv s) (hi : (s.loops i).HoldsLock) :
    (∀ k, (s.loops k).HoldsLock → k = i) ∧ ∀ j, ¬ (s.writers j).HoldsLock := by
  constructor
  · intro k hk
    have hk' : s.Inside (.loop k) := hk
    have hi' : s.Inside (.loop i) := hi
    exact Thread.loop.inj (h.lock.unique hk' hi')
  · intro j hj
    have hj' : s.Inside (.writer j) := hj
    have hi' : s.Inside (.loop i) := hi
    have heq := h.lock.unique hj' hi'
    contradiction

theorem BackendInv.replace {pref : FwPreference} {old nw : Backend} (h : SwitchInv s)
    (hi : s.loops i = .migrated pref old nw) : BackendInv { s.setLoop i (.unlocking pref) with
      cur := nw, replaced := s.replaced ++ [old.id] } := by
  obtain ⟨rfl, hlt, hne, hnew⟩ := h.backends.migrated i pref old nw hi
  obtain ⟨hloops, hwriters⟩ := h.alone (i := i) (by rw [hi]; trivial)
  -- every other goroutine is outside
  have hother : ∀ k, k ≠ i → ¬ (s.loops k).HoldsLock := fun k hk hin => hk (hloops k hin)
  refine ⟨?_, ?_, ?_, hlt, ?_, ?_⟩
  · intro k p o hk
    change Function.update s.loops i (.unlocking pref) k = _ at hk
    by_cases hki : k = i
    · rw [hki, Function.update_self] at hk
      contradiction
    · rw [Function.update_of_ne hki] at hk
      exact absurd (by rw [hk]; trivial) (hother k hki)
  · intro k p o n hk
    change Function.update s.loops i (.unlocking pref) k = _ at hk
    by_cases hki : k = i
    · rw [hki, Function.update_self] at hk
      contradiction
    · rw [Function.update_of_ne hki] at hk
      exact absurd (by rw [hk]; trivial) (hother k hki)
  · intro j call b hj
    exact absurd (by rw [show s.writers j = .executing call b from hj]; trivial) (hwriters j)
  · intro b hb
    rcases List.mem_append.mp hb with hb | hb
    · exact h.backends.replaced_lt b hb
    · rw [List.mem_singleton.mp hb]
      exact h.backends.cur_lt
  · intro hmem
    rcases List.mem_append.mp hmem with hmem | hmem
    · exact hnew hmem
    · exact hne (List.mem_singleton.mp hmem)

theorem BackendInv.build {pref : FwPreference} {old : Backend} (h : BackendInv s)
    (hi : s.loops i = .migrating pref old) (kind : BackendKind) :
    BackendInv { s.setLoop i (.migrated pref old ⟨s.built, kind⟩) with built := s.built + 1 } := by
  have hnew : s.built ∉ s.replaced := fun hmem => Nat.lt_irrefl _ (h.replaced_lt _ hmem)
  have hcur := h.cur_lt
  refine ⟨?_, ?_, h.executing, Nat.lt_succ_of_lt hcur, fun b hb => Nat.lt_succ_of_lt (h.replaced_lt b hb),
    h.cur_new⟩
  · intro k p o hk
    change Function.update s.loops i _ k = _ at hk
    by_cases hki : k = i
    · rw [hki, Function.update_self] at hk
      contradiction
    · rw [Function.update_of_ne hki] at hk
      exact h.migrating k p o hk
  · intro k p o n hk
    change Function.update s.loops i _ k = _ at hk
    by_cases hki : k = i
    · rw [hki, Function.update_self] at hk
      cases hk
      refine ⟨h.migrating i pref old hi, Nat.lt_succ_self _, ?_, hnew⟩
      show s.built ≠ s.cur.id
      omega
    · rw [Function.update_of_ne hki] at hk
      obtain ⟨hold, hlt, hne, hmem⟩ := h.migrated k p o n hk
      exact ⟨hold, Nat.lt_succ_of_lt hlt, hne, hmem⟩

theorem BackendInv.startMigration {pref : FwPreference} (h : BackendInv s) :
    BackendInv (s.setLoop i (.migrating pref s.cur)) := by
  refine ⟨?_, ?_, h.executing, h.cur_lt, h.replaced_lt, h.cur_new⟩
  · intro k p o hk
    change Function.update s.loops i _ k = _ at hk
    by_cases hki : k = i
    · rw [hki, Function.update_self] at hk
      cases hk
      rfl
    · rw [Function.update_of_ne hki] at hk
      exact h.migrating k p o hk
  · intro k p o n hk
    change Function.update s.loops i _ k = _ at hk
    by_cases hki : k = i
    · rw [hki, Function.update_self] at hk
      contradiction
    · rw [Function.update_of_ne hki] at hk
      exact h.migrated k p o n hk

theorem lock_keep (h : SwitchInv s) (pc : LoopPc) (hin : pc.HoldsLock ↔ (s.loops i).HoldsLock) :
    Exclusive s.opMu (s.setLoop i pc).Inside :=
  h.lock.keep inside_setLoop (inside_setLoop_self.trans hin)

/-- A goroutine goes on, and nothing else happens. -/
theorem SwitchInv.move (h : SwitchInv s) (pc : LoopPc) (hi : s.loops i ≠ .ended) (hpc : pc ≠ .ended)
    (hin : pc.HoldsLock ↔ (s.loops i).HoldsLock) (hswitch : ¬ pc.Switching) : SwitchInv (s.setLoop i pc) :=
  ⟨h.requests.setLoop pc hi hpc, lock_keep h pc hin, h.backends.setLoop pc hswitch⟩

theorem RequestInv.record {pref : FwPreference} (h : RequestInv s) (hi : s.loops i ≠ .ended) :
    RequestInv { s.setLoop i .check with applied := pref } := by
  have hrunning := ((h.live i).mp hi).1
  have hcheck := h.setLoop .check hi nofun
  exact ⟨hcheck.live, h.busy, fun hfalse => Bool.noConfusion (hrunning.symm.trans hfalse), h.channel,
    h.closed_iff, h.closed_nodup⟩

theorem switchInv_loopStep {built : Option BackendKind} (h : SwitchInv s)
    (hs : loopStep s i built = some s') : SwitchInv s' := by
  have hlive : ∀ pc, s.loops i = pc → pc ≠ .ended → s.loops i ≠ .ended := fun pc hi hpc => hi ▸ hpc
  have hkeep : ∀ pc pc' : LoopPc, s.loops i = pc → (pc'.HoldsLock ↔ pc.HoldsLock) →
      (pc'.HoldsLock ↔ (s.loops i).HoldsLock) := fun pc pc' hi hin => hi ▸ hin
  unfold loopStep at hs
  cases hi : s.loops i with
  | ended =>
    rw [hi] at hs
    contradiction
  | check =>
    rw [hi] at hs
    dsimp only at hs
    have hi' := hlive _ hi nofun
    split at hs
    · rename_i hwant
      obtain rfl := Option.some.inj hs
      exact ⟨h.requests.finish hi' hwant, lock_keep h .ended (hkeep _ _ hi Iff.rfl),
        (h.backends.setLoop .ended id).congr rfl rfl rfl⟩
    · obtain rfl := Option.some.inj hs
      exact h.move _ hi' nofun (hkeep _ _ hi Iff.rfl) id
  | apply pref =>
    rw [hi] at hs
    dsimp only at hs
    have hi' := hlive _ hi nofun
    split at hs
    · rename_i hfree
      obtain rfl := Option.some.inj hs
      refine ⟨(h.requests.setLoop (.locked pref) hi' nofun).congr rfl rfl, ?_,
        (h.backends.setLoop (.locked pref) id).congr rfl rfl rfl⟩
      exact (hfree ▸ h.lock).enter inside_setLoop (inside_setLoop_self.mpr trivial)
    · contradiction
  | locked pref =>
    rw [hi] at hs
    dsimp only at hs
    have hi' := hlive _ hi nofun
    split at hs
    · obtain rfl := Option.some.inj hs
      exact h.move _ hi' nofun (hkeep _ _ hi Iff.rfl) id
    · obtain rfl := Option.some.inj hs
      exact ⟨h.requests.setLoop _ hi' nofun, lock_keep h _ (hkeep _ _ hi Iff.rfl),
        h.backends.startMigration⟩
  | migrating pref old =>
    rw [hi] at hs
    have hi' := hlive _ hi nofun
    cases built with
    | none =>
      obtain rfl := Option.some.inj hs
      exact h.move _ hi' nofun (hkeep _ _ hi Iff.rfl) id
    | some kind =>
      obtain rfl := Option.some.inj hs
      exact ⟨(h.requests.setLoop (.migrated pref old ⟨s.built, kind⟩) hi' nofun).congr rfl rfl,
        lock_keep h _ (hkeep _ _ hi Iff.rfl), h.backends.build hi kind⟩
  | migrated pref old nw =>
    rw [hi] at hs
    have hi' := hlive _ hi nofun
    obtain rfl := Option.some.inj hs
    exact ⟨(h.requests.setLoop (.unlocking pref) hi' nofun).congr rfl rfl,
      lock_keep h _ (hkeep _ _ hi Iff.rfl), BackendInv.replace h hi⟩
  | unlocking pref =>
    rw [hi] at hs
    have hi' := hlive _ hi nofun
    obtain rfl := Option.some.inj hs
    have hin : s.Inside (.loop i) := by
      show (s.loops i).HoldsLock
      rw [hi]
      trivial
    exact ⟨(h.requests.setLoop (.record pref) hi' nofun).congr rfl rfl,
      h.lock.leave hin inside_setLoop (mt inside_setLoop_self.mp id),
      (h.backends.setLoop (.record pref) id).congr rfl rfl rfl⟩
  | record pref =>
    rw [hi] at hs
    have hi' := hlive _ hi nofun
    obtain rfl := Option.some.inj hs
    exact ⟨h.requests.record hi', lock_keep h .check (hkeep _ _ hi Iff.rfl),
      (h.backends.setLoop .check id).congr rfl rfl rfl⟩

theorem switchInv_writerStep {call : ω} (h : SwitchInv s) (hs : writerStep s j call = some s') :
    SwitchInv s' := by
  unfold writerStep at hs
  cases hj : s.writers j with
  | idle =>
    rw [hj] at hs
    obtain rfl := Option.some.inj hs
    refine ⟨h.requests.congr rfl rfl, ?_, h.backends.setWriter nofun⟩
    exact h.lock.keep inside_setWriter
      (inside_setWriter_self.trans (show _ ↔ (s.writers j).HoldsLock by rw [hj]; exact Iff.rfl))
  | waiting c =>
    rw [hj] at hs
    dsimp only at hs
    split at hs
    · rename_i hfree
      obtain rfl := Option.some.inj hs
      refine ⟨h.requests.congr rfl rfl, ?_,
        (@BackendInv.setWriter ω s j (.locked c) h.backends nofun).congr rfl rfl rfl⟩
      exact (hfree ▸ h.lock).enter (@inside_setWriter ω s j (.locked c))
        ((@inside_setWriter_self ω s j (.locked c)).mpr trivial)
    · contradiction
  | locked c =>
    rw [hj] at hs
    obtain rfl := Option.some.inj hs
    refine ⟨h.requests.congr rfl rfl, ?_, h.backends.setWriter fun call b hb => ?_⟩
    · exact h.lock.keep inside_setWriter
        (inside_setWriter_self.trans (show _ ↔ (s.writers j).HoldsLock by rw [hj]; exact Iff.rfl))
    · cases hb
      rfl
  | executing c b =>
    rw [hj] at hs
    obtain rfl := Option.some.inj hs
    have hin : s.Inside (.writer j) := by
      show (s.writers j).HoldsLock
      rw [hj]
      trivial
    exact ⟨h.requests.congr rfl rfl, h.lock.leave hin (@inside_setWriter ω s j .idle)
        (mt (@inside_setWriter_self ω s j .idle).mp id),
      (@BackendInv.setWriter ω s j .idle h.backends nofun).congr rfl rfl rfl⟩

theorem switchInv_request (h : SwitchInv s) (pref : FwPreference) :
    SwitchInv (requestPreference s pref) := by
  unfold requestPreference
  dsimp only
  split
  · rename_i hquiet
    refine ⟨⟨h.requests.live, h.requests.busy, fun hrunning => ?_, h.requests.channel,
      h.requests.closed_iff, h.requests.closed_nodup⟩, h.lock, h.backends.congr rfl rfl rfl⟩
    rcases hquiet with hquiet | hquiet
    · exact absurd (hquiet.symm.trans hrunning) nofun
    · exact hquiet
  · rename_i hstart
    obtain ⟨hrunning, -⟩ := not_or.mp hstart
    have hidle : s.loops s.started = .ended := by
      by_contra hne
      exact hrunning ((h.requests.live _).mp hne).1
    refine ⟨h.requests.start (Bool.not_eq_true _ ▸ hrunning), ?_,
      (h.backends.setLoop .check id).congr rfl rfl rfl⟩
    exact lock_keep h .check (show _ ↔ (s.loops s.started).HoldsLock by rw [hidle]; exact Iff.rfl)

theorem switchInv_step {a : SwitchAct ω} (h : SwitchInv s) (hs : switchStep s a = some s') :
    SwitchInv s' := by
  cases a with
  | request pref =>
    obtain rfl := Option.some.inj hs
    exact switchInv_request h pref
  | loop i built => exact switchInv_loopStep h hs
  | write j call => exact switchInv_writerStep h hs

end invariant

/-! ## Runs -/

section runs
variable {ω : Type} {s s' : SwitchableFirewall ω}

theorem want_step {a : SwitchAct ω} (hs : switchStep s a = some s') :
    s'.want = lastRequested s.want [a] := by
  cases a with
  | request pref =>
    obtain rfl := Option.some.inj hs
    unfold requestPreference
    dsimp only
    split <;> rfl
  | loop i built =>
    change loopStep s i built = some s' at hs
    unfold loopStep at hs
    split at hs
    all_goals first
      | contradiction
      | (obtain rfl := Option.some.inj hs; rfl)
      | (split at hs <;> first | contradiction | (obtain rfl := Option.some.inj hs; rfl))
  | write j call =>
    change writerStep s j call = some s' at hs
    unfold writerStep at hs
    split at hs
    all_goals first
      | contradiction
      | (obtain rfl := Option.some.inj hs; rfl)
      | (split at hs <;> first | contradiction | (obtain rfl := Option.some.inj hs; rfl))

theorem lastRequested_cons (pref : FwPreference) (a : SwitchAct ω) (acts : List (SwitchAct ω)) :
    lastRequested pref (a :: acts) = lastRequested (lastRequested pref [a]) acts := by
  cases a <;> rfl

theorem want_run {acts : List (SwitchAct ω)} (h : run switchStep s acts = some s') :
    s'.want = lastRequested s.want acts := by
  induction acts generalizing s with
  | nil =>
    obtain rfl := Option.some.inj h
    rfl
  | cons a acts ih =>
    obtain ⟨t, ht, h⟩ := run_cons.mp h
    rw [lastRequested_cons, ← want_step ht]
    exact ih h

end runs

/-- In every interleaving: one `applyPreference` at a time; with no switch pending the preference applied
is the one requested last, and a goroutine works on one that is; the channel `idle` is closed when no switch
is pending, and only then, and no channel is closed twice; and no write executes on a backend that a switch
has replaced. -/
theorem preference_protocol (ω : Type) (kind : BackendKind) (pref : FwPreference)
    (acts : List (SwitchAct ω)) (s : SwitchableFirewall ω)
    (h : run switchStep (newSwitchableFirewall ω kind pref) acts = some s) :
    (∀ i k, (s.loops i).Applying → (s.loops k).Applying → i = k) ∧
      (s.running = false → s.applied = lastRequested pref acts ∧ ∀ i, s.loops i = .ended) ∧
      (s.running = true → ∃ i, s.loops i ≠ .ended) ∧
      ((s.idle ∈ s.closed ↔ s.running = false) ∧ s.closed.Nodup) ∧
      ∀ j call b, s.writers j = .executing call b → b = s.cur ∧ b.id ∉ s.replaced := by
  have hinv : SwitchInv s := run_preserves (fun _ _ _ => switchInv_step) (switchInv_new kind pref) h
  have hlive : ∀ i, (s.loops i).Applying → s.running = true ∧ i + 1 = s.started := by
    intro i hi
    refine (hinv.requests.live i).mp fun hended => ?_
    rw [hended] at hi
    exact hi
  refine ⟨?_, ?_, ?_, ⟨?_, hinv.requests.closed_nodup⟩, ?_⟩
  · intro i k hi hk
    have hi' := (hlive i hi).2
    have hk' := (hlive k hk).2
    omega
  · intro hrunning
    refine ⟨?_, fun i => ?_⟩
    · rw [← hinv.requests.settled hrunning, want_run h]
      rfl
    · by_contra hne
      rw [((hinv.requests.live i).mp hne).1] at hrunning
      contradiction
  · intro hrunning
    have hstarted := hinv.requests.busy hrunning
    exact ⟨s.started - 1, (hinv.requests.live _).mpr ⟨hrunning, by omega⟩⟩
  · rw [hinv.requests.closed_iff]
    simp
  · intro j call b hj
    obtain rfl := hinv.backends.executing j call b hj
    exact ⟨rfl, hinv.backends.cur_new⟩

/-- A switch to netsh; a call that came in while it ran waits, and executes on the new backend. -/
def switchToNetsh : List (SwitchAct Unit) :=
  [.request .netsh, .loop 0 none, .loop 0 none, .write 0 (), .loop 0 none, .loop 0 (some .netsh), .loop 0 none,
    .loop 0 none, .write 0 (), .write 0 (), .loop 0 none, .loop 0 none]

theorem preference_protocol_netsh :
    ∃ s, run switchStep (newSwitchableFirewall Unit .wfp .auto) switchToNetsh = some s ∧
      s.running = false ∧ s.applied = .netsh ∧
      s.writers 0 = .executing () ⟨1, .netsh⟩ ∧ (1 ∉ s.replaced) := by
  obtain ⟨s, hs⟩ : ∃ s, run switchStep (newSwitchableFirewall Unit .wfp .auto) switchToNetsh = some s :=
    ⟨_, rfl⟩
  obtain ⟨-, hsettled, -, -, hwrites⟩ := preference_protocol Unit .wfp .auto switchToNetsh s hs
  have hrun : s.running = false ∧ s.writers 0 = .executing () ⟨1, .netsh⟩ := by
    obtain rfl := Option.some.inj hs
    exact ⟨rfl, rfl⟩
  exact ⟨s, hs, hrun.1, (hsettled hrun.1).1, hrun.2, (hwrites 0 () _ hrun.2).2⟩

end Obliguard.Agent

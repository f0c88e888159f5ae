import Obliguard.Lib.Keyed
import Obliguard.Lib.Runs

/-!
# The snapshot of the settings cascade

`getSnapshot` and `invalidate` of `agentConfig.service.ts`. Every resolver of the service takes one
snapshot and reads the cascade of its devices off it; the snapshot is loaded by four queries, shared by
the callers that wait for it, kept for 15 s, and given up by `invalidate`, which also counts a
generation: a load of an earlier one is not kept. `resolve_fresh` says that a call never uses a
snapshot loaded before an `invalidate` that returned before the call.

The database is any type; what each query of a load saw of it is kept, with the number of `invalidate`
calls before the query. These numbers are not part of the code.
-/

namespace Obliguard.Server

open Runs

/-! ## The machine -/

def snapshotTtlMs : Int := 15000

/-- The queries of `loadSnapshot`: settings, groups, closure, tenants. -/
def snapshotQueries : Nat := 4

structure SettingsSnapshot (δ : Type) where
  loadedAt : Int
  /-- The `invalidate` calls before its load started. -/
  startedAfter : Nat
  /-- What each query saw, with the `invalidate` calls before it. -/
  reads : List (Nat × δ)
deriving DecidableEq

/-- Where the promise of a load is. -/
inductive LoadPhase (δ : Type)
  | reading (reads : List (Nat × δ))
  /-- `loadSnapshot` has resolved; before `then`. -/
  | loaded (snap : SettingsSnapshot δ)
  /-- Before `finally`. -/
  | stored (snap : SettingsSnapshot δ)
  | failed
  /-- The callers resume, with an error where there is no snapshot. -/
  | settled (snap : Option (SettingsSnapshot δ))

structure SettingsLoad (δ : Type) where
  /-- The `invalidate` calls before it started. -/
  startedAfter : Nat
  /-- `gen`. -/
  generation : Nat
  phase : LoadPhase δ

/-- A resolver that waits for a load. -/
structure ResolveCall where
  /-- The `invalidate` calls before it started. -/
  after : Nat
  load : Nat

/-- A resolver that goes on with a snapshot. -/
structure Resolved (δ : Type) where
  after : Nat
  snap : SettingsSnapshot δ
deriving DecidableEq

structure SettingsState (δ : Type) where
  clock : Int
  db : δ
  /-- The `invalidate` calls that have returned. -/
  invalidations : Nat
  generation : Nat
  snapshot : Option (SettingsSnapshot δ)
  /-- `_loading`. -/
  loading : Option Nat
  loads : Registry (SettingsLoad δ)
  calls : Registry ResolveCall
  resolved : List (Resolved δ)

variable {δ : Type}

/-- The service as the module is loaded. -/
def SettingsState.init (db : δ) : SettingsState δ :=
  ⟨0, db, 0, 0, none, none, .empty, .empty, []⟩

inductive SettingsAction (δ : Type)
  | tick (clock : Int)
  | write (db : δ)
  | invalidate
  /-- A resolver is called; a load that it starts gets the number. -/
  | resolve (c newLoad : Nat)
  /-- A query of a load. -/
  | read (l : Nat)
  /-- A query fails. -/
  | fail (l : Nat)
  | build (l : Nat)
  | store (l : Nat)
  | settle (l : Nat)
  | resume (c : Nat)

/-- `getSnapshot`. -/
def getSnapshot (s : SettingsState δ) (c newLoad : Nat) : Option (SettingsState δ) :=
  match s.snapshot.filter fun snap => decide (s.clock - snap.loadedAt < snapshotTtlMs) with
  | some snap => some { s with resolved := s.resolved ++ [⟨s.invalidations, snap⟩] }
  | none =>
    match s.loading with
    | some l => some { s with calls := s.calls.put c ⟨s.invalidations, l⟩ }
    | none =>
      if (s.loads.get newLoad).isNone then some { s with
        loading := some newLoad
        loads := s.loads.put newLoad ⟨s.invalidations, s.generation, .reading []⟩
        calls := s.calls.put c ⟨s.invalidations, newLoad⟩ }
      else none

/-- The next step of a load. -/
def loadStep (s : SettingsState δ) (l : Nat) (load : SettingsLoad δ) :
    SettingsAction δ → Option (SettingsState δ)
  | .read _ => match load.phase with
    | .reading reads =>
      if reads.length < snapshotQueries then some { s with
        loads := s.loads.put l { load with phase := .reading (reads ++ [(s.invalidations, s.db)]) } }
      else none
    | _ => none
  | .fail _ => match load.phase with
    | .reading _ => some { s with loads := s.loads.put l { load with phase := .failed } }
    | _ => none
  | .build _ => match load.phase with
    | .reading reads =>
      if reads.length = snapshotQueries then some { s with
        loads := s.loads.put l { load with
          phase := .loaded ⟨s.clock, load.startedAfter, reads⟩ } }
      else none
    | _ => none
  | .store _ => match load.phase with
    | .loaded snap => some { s with
        loads := s.loads.put l { load with phase := .stored snap }
        snapshot := if load.generation = s.generation then some snap else s.snapshot }
    | _ => none
  | .settle _ =>
    let loading := if s.loading = some l then none else s.loading
    match load.phase with
    | .stored snap => some { s with
        loads := s.loads.put l { load with phase := .settled (some snap) }
        loading := loading }
    | .failed => some { s with
        loads := s.loads.put l { load with phase := .settled none }
        loading := loading }
    | _ => none
  | _ => none

/-- One step. -/
def settingsStep (s : SettingsState δ) : SettingsAction δ → Option (SettingsState δ)
  | .tick clock => some { s with clock := clock }
  | .write db => some { s with db := db }
  | .invalidate => some { s with
      generation := s.generation + 1
      snapshot := none
      loading := none
      invalidations := s.invalidations + 1 }
  | .resolve c newLoad => if (s.calls.get c).isNone then getSnapshot s c newLoad else none
  | .read l => (s.loads.get l).bind fun load => loadStep s l load (.read l)
  | .fail l => (s.loads.get l).bind fun load => loadStep s l load (.fail l)
  | .build l => (s.loads.get l).bind fun load => loadStep s l load (.build l)
  | .store l => (s.loads.get l).bind fun load => loadStep s l load (.store l)
  | .settle l => (s.loads.get l).bind fun load => loadStep s l load (.settle l)
  | .resume c =>
    (s.calls.get c).bind fun call => (s.loads.get call.load).bind fun load =>
      match load.phase with
      | .settled (some snap) => some { s with
          calls := s.calls.erase c
          resolved := s.resolved ++ [⟨call.after, snap⟩] }
      | .settled none => some { s with calls := s.calls.erase c }
      | _ => none

/-! ## The invariant -/

/-- The snapshot of a load that started after so many `invalidate` calls, with all its queries. -/
def LoadedAfter (n : Nat) (snap : SettingsSnapshot δ) : Prop :=
  snap.startedAfter = n ∧ ∀ r ∈ snap.reads, n ≤ r.1

/-- What a load has so far. -/
def PhaseAfter (n : Nat) : LoadPhase δ → Prop
  | .reading reads => ∀ r ∈ reads, n ≤ r.1
  | .loaded snap => LoadedAfter n snap
  | .stored snap => LoadedAfter n snap
  | .failed => True
  | .settled snap => ∀ x ∈ snap, LoadedAfter n x

structure SettingsInv (s : SettingsState δ) : Prop where
  generation : s.generation = s.invalidations
  snapshot : ∀ snap ∈ s.snapshot, LoadedAfter s.invalidations snap
  loads : ∀ l load, s.loads.get l = some load → load.generation = load.startedAfter ∧
    load.startedAfter ≤ s.invalidations ∧ PhaseAfter load.startedAfter load.phase
  loading : ∀ l ∈ s.loading, ∃ load, s.loads.get l = some load ∧
    load.startedAfter = s.invalidations
  calls : ∀ c call, s.calls.get c = some call → ∃ load, s.loads.get call.load = some load ∧
    call.after ≤ load.startedAfter
  resolved : ∀ r ∈ s.resolved, r.after ≤ r.snap.startedAfter ∧ ∀ q ∈ r.snap.reads, r.after ≤ q.1

section invariant
variable {s s' : SettingsState δ} {l c : Nat} {load : SettingsLoad δ}

theorem settingsInv_load (h : SettingsInv s) (hl : s.loads.get l = some load) {phase : LoadPhase δ}
    (hphase : PhaseAfter load.startedAfter phase) :
    SettingsInv { s with loads := s.loads.put l { load with phase := phase } } := by
  have hkept : ∀ m other, s.loads.get m = some other → ∃ other',
      (s.loads.put l { load with phase := phase }).get m = some other' ∧
        other'.startedAfter = other.startedAfter := by
    intro m other hm
    by_cases hml : m = l
    · subst hml
      rw [hl, Option.some.injEq] at hm
      exact ⟨_, Registry.get_put_self, by rw [hm]⟩
    · exact ⟨other, (Registry.get_put_of_ne hml).trans hm, rfl⟩
  refine { h with loads := ?_, loading := ?_, calls := ?_ }
  · intro m other hm
    rcases Registry.get_put_eq_some hm with ⟨-, rfl⟩ | ⟨-, hm⟩
    · exact ⟨(h.loads l load hl).1, (h.loads l load hl).2.1, hphase⟩
    · exact h.loads m other hm
  · intro m hm
    obtain ⟨other, hother, hafter⟩ := h.loading m hm
    obtain ⟨other', hother', heq⟩ := hkept m other hother
    exact ⟨other', hother', heq.trans hafter⟩
  · intro c call hc
    obtain ⟨other, hother, hafter⟩ := h.calls c call hc
    obtain ⟨other', hother', heq⟩ := hkept call.load other hother
    exact ⟨other', hother', heq ▸ hafter⟩

theorem settingsInv_settle (h : SettingsInv s) (hl : s.loads.get l = some load)
    {snap : Option (SettingsSnapshot δ)} (hsnap : PhaseAfter load.startedAfter (.settled snap)) :
    SettingsInv { s with
      loads := s.loads.put l { load with phase := .settled snap }
      loading := if s.loading = some l then none else s.loading } := by
  have hload := settingsInv_load h hl hsnap
  refine { hload with loading := ?_ }
  intro m hm
  split at hm
  · contradiction
  · exact hload.loading m hm

theorem settingsInv_resolved (h : SettingsInv s) {after n : Nat} {snap : SettingsSnapshot δ}
    (hsnap : LoadedAfter n snap) (hn : after ≤ n) :
    SettingsInv { s with resolved := s.resolved ++ [⟨after, snap⟩] } := by
  refine { h with resolved := ?_ }
  intro r hr
  rcases List.mem_append.mp hr with hr | hr
  · exact h.resolved r hr
  · rw [List.mem_singleton.mp hr]
    refine ⟨?_, ?_⟩
    · rw [hsnap.1]
      exact hn
    · exact fun q hq => Nat.le_trans hn (hsnap.2 q hq)

theorem settingsInv_call (h : SettingsInv s) (hload : ∃ load, s.loads.get l = some load ∧
    load.startedAfter = s.invalidations) :
    SettingsInv { s with calls := s.calls.put c ⟨s.invalidations, l⟩ } := by
  refine { h with calls := ?_ }
  intro d call hd
  rcases Registry.get_put_eq_some hd with ⟨-, rfl⟩ | ⟨-, hd⟩
  · obtain ⟨load, hl, hafter⟩ := hload
    exact ⟨load, hl, Nat.le_of_eq hafter.symm⟩
  · exact h.calls d call hd

theorem settingsInv_getSnapshot (h : SettingsInv s) (hs : getSnapshot s c l = some s') :
    SettingsInv s' := by
  unfold getSnapshot at hs
  split at hs
  · rename_i snap hsnap
    cases hs
    exact settingsInv_resolved h (h.snapshot snap (Option.filter_eq_some_iff.mp hsnap).1)
      (Nat.le_refl _)
  · split at hs
    · rename_i m hloading
      cases hs
      exact settingsInv_call h (h.loading m hloading)
    · split at hs
      · rename_i hnew
        cases hs
        -- a new load, of the current generation
        have hne : ∀ m other, s.loads.get m = some other → m ≠ l := by
          rintro m other hm rfl
          rw [hm] at hnew
          contradiction
        refine settingsInv_call (s := { s with
          loading := some l
          loads := s.loads.put l ⟨s.invalidations, s.generation, .reading []⟩ }) ?_
          ⟨_, Registry.get_put_self, rfl⟩
        refine { h with loads := ?_, loading := ?_, calls := ?_ }
        · intro m other hm
          rcases Registry.get_put_eq_some hm with ⟨-, rfl⟩ | ⟨-, hm⟩
          · exact ⟨h.generation, Nat.le_refl _, by simp [PhaseAfter]⟩
          · exact h.loads m other hm
        · intro m hm
          obtain rfl := Option.some.inj hm
          exact ⟨_, Registry.get_put_self, rfl⟩
        · intro d call hd
          obtain ⟨other, hother, hafter⟩ := h.calls d call hd
          exact ⟨other, (Registry.get_put_of_ne (hne _ _ hother)).trans hother, hafter⟩
      · contradiction

/-- A load that is stored is of the current generation, so it started after the last `invalidate`. -/
theorem settingsInv_store (h : SettingsInv s) (hl : s.loads.get l = some load)
    {snap : SettingsSnapshot δ} (hsnap : LoadedAfter load.startedAfter snap) :
    SettingsInv { s with
      loads := s.loads.put l { load with phase := .stored snap }
      snapshot := if load.generation = s.generation then some snap else s.snapshot } := by
  have hload : SettingsInv { s with loads := s.loads.put l { load with phase := .stored snap } } :=
    settingsInv_load h hl hsnap
  refine { hload with snapshot := ?_ }
  intro x hx
  split at hx
  · rename_i hgeneration
    obtain rfl := Option.some.inj hx
    have hcurrent : load.startedAfter = s.invalidations := by
      have := (h.loads l load hl).1
      have := h.generation
      omega
    exact hcurrent ▸ hsnap
  · exact h.snapshot x hx

theorem settingsInv_loadStep {a : SettingsAction δ} (h : SettingsInv s)
    (hl : s.loads.get l = some load) (hs : loadStep s l load a = some s') : SettingsInv s' := by
  have hphase := (h.loads l load hl).2.2
  have hle := (h.loads l load hl).2.1
  cases a with
  | read m =>
    simp only [loadStep] at hs
    split at hs
    · rename_i reads heq
      rw [heq] at hphase
      split at hs
      · cases hs
        refine settingsInv_load h hl ?_
        intro r hr
        rcases List.mem_append.mp hr with hr | hr
        · exact hphase r hr
        · rw [List.mem_singleton.mp hr]
          exact hle
      · contradiction
    · contradiction
  | fail m =>
    simp only [loadStep] at hs
    split at hs
    · cases hs
      exact settingsInv_load h hl trivial
    · contradiction
  | build m =>
    simp only [loadStep] at hs
    split at hs
    · rename_i reads heq
      rw [heq] at hphase
      split at hs
      · cases hs
        exact settingsInv_load h hl ⟨rfl, hphase⟩
      · contradiction
    · contradiction
  | store m =>
    simp only [loadStep] at hs
    split at hs
    · rename_i snap heq
      rw [heq] at hphase
      cases hs
      exact settingsInv_store h hl hphase
    · contradiction
  | settle m =>
    simp only [loadStep] at hs
    split at hs
    · rename_i snap heq
      rw [heq] at hphase
      cases hs
      exact settingsInv_settle h hl (by simpa [PhaseAfter] using hphase)
    · cases hs
      exact settingsInv_settle h hl (by simp [PhaseAfter])
    · contradiction
  | tick | write | invalidate | resolve | resume => contradiction

theorem settingsInv_step {a : SettingsAction δ} (h : SettingsInv s)
    (hs : settingsStep s a = some s') : SettingsInv s' := by
  cases a with
  | tick clock =>
    cases hs
    exact { h with }
  | write db =>
    cases hs
    exact { h with }
  | invalidate =>
    cases hs
    refine { h with generation := ?_, snapshot := by simp, loads := ?_, loading := by simp }
    · simp [h.generation]
    · intro l load hl
      obtain ⟨hgeneration, hle, hphase⟩ := h.loads l load hl
      exact ⟨hgeneration, Nat.le_succ_of_le hle, hphase⟩
  | resolve c newLoad =>
    simp only [settingsStep] at hs
    split at hs
    · exact settingsInv_getSnapshot h hs
    · contradiction
  | read l | fail l | build l | store l | settle l =>
    obtain ⟨load, hl, hs⟩ := Option.bind_eq_some_iff.mp hs
    exact settingsInv_loadStep h hl hs
  | resume c =>
    obtain ⟨call, hc, hs⟩ := Option.bind_eq_some_iff.mp hs
    obtain ⟨load, hl, hs⟩ := Option.bind_eq_some_iff.mp hs
    have hcalls : SettingsInv { s with calls := s.calls.erase c } :=
      { h with calls := fun d call hd => h.calls d call (Registry.get_erase_eq_some hd).2 }
    split at hs
    · rename_i snap heq
      cases hs
      have hphase := (h.loads _ load hl).2.2
      rw [heq] at hphase
      obtain ⟨load', hl', hafter⟩ := h.calls c call hc
      rw [hl, Option.some.injEq] at hl'
      exact settingsInv_resolved hcalls (hphase snap rfl) (hl' ▸ hafter)
    · cases hs
      exact hcalls
    · contradiction

end invariant

/-- In every run, a resolver that is called after an `invalidate` has returned uses a snapshot whose
load, with all its queries, started after it. -/
theorem resolve_fresh (db : δ) (as : List (SettingsAction δ)) (s : SettingsState δ)
    (h : run settingsStep (.init db) as = some s) : ∀ r ∈ s.resolved,
      r.after ≤ r.snap.startedAfter ∧ ∀ q ∈ r.snap.reads, r.after ≤ q.1 := by
  have h0 : SettingsInv (.init db) := by
    constructor <;> simp [SettingsState.init]
  exact (run_preserves (fun _ _ _ => settingsInv_step) h0 h).resolved

/-- The queries of a load and what follows them. -/
def wholeLoad (l : Nat) : List (SettingsAction String) :=
  List.replicate 4 (.read l) ++ [.build l, .store l, .settle l]

/-- A write and its `invalidate` land while a load is shared by two calls; a third call starts a load
of its own, and the old one finishes first. -/
def overlappingLoads : List (SettingsAction String) :=
  [.resolve 0 0, .read 0, .resolve 1 1, .write "new", .invalidate, .resolve 2 1, .read 0, .read 0,
    .read 0, .build 0, .store 0, .settle 0] ++ wholeLoad 1 ++ [.resume 0, .resume 1, .resume 2,
      .resolve 3 2]

theorem resolve_fresh_overlapping :
    (run settingsStep (.init "old") overlappingLoads).map (fun s =>
        s.resolved.map fun r => (r.after, r.snap.reads.map (·.2))) =
      some [(0, ["old", "new", "new", "new"]), (0, ["old", "new", "new", "new"]),
        (1, ["new", "new", "new", "new"]), (1, ["new", "new", "new", "new"])] ∧
    ∃ s, run settingsStep (.init "old") overlappingLoads = some s ∧ ∀ r ∈ s.resolved,
      r.after ≤ r.snap.startedAfter ∧ ∀ q ∈ r.snap.reads, r.after ≤ q.1 := by
  have hreads : (run settingsStep (.init "old") overlappingLoads).map (fun s =>
      s.resolved.map fun r => (r.after, r.snap.reads.map (·.2))) =
        some [(0, ["old", "new", "new", "new"]), (0, ["old", "new", "new", "new"]),
          (1, ["new", "new", "new", "new"]), (1, ["new", "new", "new", "new"])] := by
    decide +kernel
  refine ⟨hreads, ?_⟩
  obtain ⟨s, hs, -⟩ := Option.map_eq_some_iff.mp hreads
  exact ⟨s, hs, resolve_fresh "old" overlappingLoads s hs⟩

end Obliguard.Server

import Obliguard.Lib.Keyed
import Obliguard.Server.AgentCommands

/-!
# The binding of a device to an API key

`checkAgentBinding` and `releaseKeyBinding` of `server/src/services/agent.service.ts` on one row of
`agent_devices`, statement by statement. A check reads the row (`findDeviceBindingByUuid`), claims it by a
conditional update when it is unbound (`ensureAgentBinding`), and reads it once more when the update met no row;
the update too reads the row that it tests.

`Eligible` is what holds in every run, in both modes of `AGENT_KEY_BINDING`: a check that gets past the first
look is by a key of the device's tenant, and never on a MikroTik row. `Bound` is what holds of the checks begun
since the last release in strict mode; `binding_one_key` puts them together.
-/

namespace Obliguard.Server

open Runs

/-! ## Identity rules -/

structure AgentKeyRef where
  id : Nat
  tenantId : Nat
deriving DecidableEq

structure DeviceBindingRow where
  id : Nat
  tenantId : Nat
  apiKeyId : Option Nat
  deviceType : Option String
  status : AgentDeviceStatus
deriving DecidableEq

def DeviceBindingRow.isMikrotik (device : DeviceBindingRow) : Bool := device.deviceType == some "mikrotik"

def agentKeyMayActForDevice (key : AgentKeyRef) (device : DeviceBindingRow) : Bool :=
  if device.tenantId ≠ key.tenantId then false
  else if device.isMikrotik then false
  else match device.apiKeyId with
    | some bound => bound == key.id
    | none => true

def agentKeyMayRebindDevice (key : AgentKeyRef) (device : DeviceBindingRow) : Bool :=
  device.tenantId == key.tenantId && !device.isMikrotik

/-- `AGENT_KEY_BINDING`. -/
inductive KeyBindingMode
  | strict
  | tenant
deriving DecidableEq

/-! ## Statements -/

/-- Where a check stands. -/
inductive BindingPc
  /-- Before the update that claims the row. -/
  | claiming
  /-- Before the update that takes the row over from a key. -/
  | rebinding (fromKeyId : Nat)
  /-- The update met no row. -/
  | refreshing
  | answered (ok : Bool)
  /-- A statement failed. -/
  | threw
deriving DecidableEq

structure BindingCheck where
  key : AgentKeyRef
  pc : BindingPc
deriving DecidableEq

structure BindingState where
  row : DeviceBindingRow
  checks : Registry BindingCheck

inductive BindingAction
  /-- Check number `t` reads the row. -/
  | begin (t : Nat) (key : AgentKeyRef)
  /-- The next statement of check `t`. -/
  | advance (t : Nat)
  | fail (t : Nat)
  | release (tenantId : Nat)
deriving DecidableEq

/-- `ensureAgentBinding` up to its first statement. -/
def ensureAgentBinding (mode : KeyBindingMode) (key : AgentKeyRef) (row : DeviceBindingRow) : BindingPc :=
  if row.status = .suspended ∨ row.status = .refused then
    .answered (agentKeyMayActForDevice key row || mode == .tenant && agentKeyMayRebindDevice key row)
  else if agentKeyMayActForDevice key row then
    if row.apiKeyId.isSome then .answered true else .claiming
  else if mode = .tenant ∧ agentKeyMayRebindDevice key row then
    match row.apiKeyId with
    | some fromKeyId => .rebinding fromKeyId
    | none => .answered false
  else .answered false

/-- The update of an `api_key_id` that still is `expected`, and whether it met the row. -/
def updateBinding (key : AgentKeyRef) (expected : Option Nat) (row : DeviceBindingRow) : DeviceBindingRow × BindingPc :=
  if row.tenantId = key.tenantId ∧ row.apiKeyId = expected then
    ({ row with apiKeyId := some key.id }, .answered true)
  else (row, .refreshing)

/-- The next statement of a check. -/
def advanceCheck (c : BindingCheck) (row : DeviceBindingRow) : Option (DeviceBindingRow × BindingPc) :=
  match c.pc with
  | .claiming => some (updateBinding c.key none row)
  | .rebinding fromKeyId => some (updateBinding c.key fromKeyId row)
  | .refreshing => some (row, .answered (agentKeyMayActForDevice c.key row))
  | _ => none

def releaseKeyBinding (tenantId : Nat) (row : DeviceBindingRow) : DeviceBindingRow :=
  if row.tenantId = tenantId ∧ row.isMikrotik = false then { row with apiKeyId := none } else row

def bindingStep (mode : KeyBindingMode) (s : BindingState) : BindingAction → Option BindingState
  | .begin t key =>
    match s.checks.get t with
    | none => some { s with checks := s.checks.put t ⟨key, ensureAgentBinding mode key s.row⟩ }
    | some _ => none
  | .advance t =>
    (s.checks.get t).bind fun c => (advanceCheck c s.row).map fun next =>
      { row := next.1, checks := s.checks.put t { c with pc := next.2 } }
  | .fail t => (s.checks.get t).map fun c => { s with checks := s.checks.put t { c with pc := .threw } }
  | .release tenantId => some { s with row := releaseKeyBinding tenantId s.row }

/-! ## What every run keeps -/

/-- The check has not been refused. -/
def BindingPc.IsOpen : BindingPc → Prop
  | .answered false | .threw => False
  | _ => True

/-- The key is of the device's tenant, and the device takes keys. -/
def DeviceBindingRow.Takes (row : DeviceBindingRow) (key : AgentKeyRef) : Prop :=
  row.tenantId = key.tenantId ∧ row.isMikrotik = false

/-- Nothing but the binding changes, that of a MikroTik row not at all, and only keys that the row takes get past
the first look. -/
structure Eligible (mode : KeyBindingMode) (row : DeviceBindingRow) (s : BindingState) : Prop where
  identity : s.row = { row with apiKeyId := s.row.apiKeyId }
  mikrotik : row.isMikrotik = true → s.row.apiKeyId = row.apiKeyId
  checks : ∀ t c, s.checks.get t = some c → c.pc.IsOpen → row.Takes c.key
  rebinding : ∀ t c fromKeyId, s.checks.get t = some c → c.pc = .rebinding fromKeyId → mode = .tenant

section rules
variable {mode : KeyBindingMode} {row : DeviceBindingRow} {key : AgentKeyRef}

theorem mayAct_iff : agentKeyMayActForDevice key row = true ↔
    row.Takes key ∧ ∀ bound, row.apiKeyId = some bound → bound = key.id := by
  rw [agentKeyMayActForDevice, DeviceBindingRow.Takes]
  split
  · rename_i htenant
    exact iff_of_false nofun fun h => htenant h.1.1
  · rename_i htenant
    rw [not_not] at htenant
    split
    · rename_i hmikrotik
      refine iff_of_false nofun fun h => ?_
      rw [h.1.2] at hmikrotik
      contradiction
    · rename_i hmikrotik
      rw [Bool.not_eq_true] at hmikrotik
      split
      · rename_i bound hbound
        rw [hbound, beq_iff_eq]
        exact ⟨fun h => ⟨⟨htenant, hmikrotik⟩, fun b hb => Option.some.inj hb ▸ h⟩, fun h => h.2 bound rfl⟩
      · rename_i hbound
        rw [hbound]
        exact iff_of_true rfl ⟨⟨htenant, hmikrotik⟩, nofun⟩

theorem mayRebind_takes (h : agentKeyMayRebindDevice key row = true) : row.Takes key := by
  rw [agentKeyMayRebindDevice, Bool.and_eq_true, beq_iff_eq, Bool.not_eq_true'] at h
  exact h

theorem ensureAgentBinding_open (h : (ensureAgentBinding mode key row).IsOpen) : row.Takes key := by
  rw [ensureAgentBinding] at h
  split at h
  · cases hok : agentKeyMayActForDevice key row with
    | true => exact (mayAct_iff.mp hok).1
    | false =>
      rw [hok, Bool.false_or] at h
      cases hrebind : agentKeyMayRebindDevice key row with
      | true => exact mayRebind_takes hrebind
      | false =>
        rw [hrebind, Bool.and_false] at h
        exact h.elim
  · split at h
    · rename_i hok
      exact (mayAct_iff.mp hok).1
    · split at h
      · rename_i hrebind
        exact mayRebind_takes hrebind.2
      · exact h.elim

theorem ensureAgentBinding_rebinding {fromKeyId : Nat}
    (h : ensureAgentBinding mode key row = .rebinding fromKeyId) : mode = .tenant := by
  rw [ensureAgentBinding] at h
  split at h
  · contradiction
  · split at h
    · split at h <;> contradiction
    · split at h
      · rename_i hrebind
        exact hrebind.1
      · contradiction

theorem ensureAgentBinding_strict (hstatus : row.status ≠ .suspended ∧ row.status ≠ .refused) :
    ensureAgentBinding .strict key row =
      if agentKeyMayActForDevice key row then if row.apiKeyId.isSome then .answered true else .claiming
      else .answered false := by
  have hpure : ¬ (row.status = .suspended ∨ row.status = .refused) := fun h => h.elim hstatus.1 hstatus.2
  have hmode : ¬ (KeyBindingMode.strict = .tenant ∧ agentKeyMayRebindDevice key row = true) := fun h => nomatch h.1
  rw [ensureAgentBinding, if_neg hpure, if_neg hmode]

end rules

section eligible
variable {mode : KeyBindingMode} {row : DeviceBindingRow} {s s' : BindingState} {a : BindingAction}

theorem Eligible.init (mode : KeyBindingMode) (row : DeviceBindingRow) :
    Eligible mode row ⟨row, Registry.empty⟩ :=
  ⟨rfl, fun _ => rfl, fun _ _ h => (nomatch h), fun _ _ _ h => (nomatch h)⟩

theorem Eligible.takes (h : Eligible mode row s) {key : AgentKeyRef} : s.row.Takes key ↔ row.Takes key := by
  rw [h.identity]
  rfl

theorem Eligible.put (h : Eligible mode row s) {t : Nat} {c : BindingCheck} {device : DeviceBindingRow}
    (hidentity : device = { row with apiKeyId := device.apiKeyId })
    (hmikrotik : row.isMikrotik = true → device.apiKeyId = row.apiKeyId)
    (hopen : c.pc.IsOpen → row.Takes c.key) (hrebinding : ∀ k, c.pc = .rebinding k → mode = .tenant) :
    Eligible mode row ⟨device, s.checks.put t c⟩ := by
  refine ⟨hidentity, hmikrotik, ?_, ?_⟩
  · intro u c' hget
    rcases Registry.get_put_eq_some hget with ⟨-, rfl⟩ | ⟨-, hget⟩
    · exact hopen
    · exact h.checks u c' hget
  · intro u c' k hget
    rcases Registry.get_put_eq_some hget with ⟨-, rfl⟩ | ⟨-, hget⟩
    · exact hrebinding k
    · exact h.rebinding u c' k hget

theorem Eligible.update (h : Eligible mode row s) {t : Nat} {c : BindingCheck} {expected : Option Nat}
    (htakes : row.Takes c.key) :
    Eligible mode row ⟨(updateBinding c.key expected s.row).1,
      s.checks.put t { c with pc := (updateBinding c.key expected s.row).2 }⟩ := by
  rw [updateBinding]
  split
  · refine h.put ?_ ?_ (fun _ => htakes) nofun
    · dsimp only
      rw [h.identity]
    · intro hmikrotik
      rw [htakes.2] at hmikrotik
      contradiction
  · exact h.put h.identity h.mikrotik (fun _ => htakes) nofun

theorem bindingStep_eligible (h : Eligible mode row s) (hs : bindingStep mode s a = some s') :
    Eligible mode row s' := by
  cases a with
  | begin t key =>
    rw [bindingStep] at hs
    split at hs
    · rw [← Option.some.inj hs]
      exact h.put h.identity h.mikrotik (fun hopen => h.takes.mp (ensureAgentBinding_open hopen))
        fun _ hpc => ensureAgentBinding_rebinding hpc
    · contradiction
  | advance t =>
    rw [bindingStep, Option.bind_eq_some_iff] at hs
    obtain ⟨c, hc, hs⟩ := hs
    obtain ⟨next, hnext, rfl⟩ := Option.map_eq_some_iff.mp hs
    have htakes : c.pc.IsOpen → row.Takes c.key := h.checks t c hc
    rw [advanceCheck] at hnext
    split at hnext
    · rename_i hpc
      rw [hpc] at htakes
      rw [← Option.some.inj hnext]
      exact h.update (htakes trivial)
    · rename_i hpc
      rw [hpc] at htakes
      rw [← Option.some.inj hnext]
      exact h.update (htakes trivial)
    · rename_i hpc
      rw [hpc] at htakes
      rw [← Option.some.inj hnext]
      exact h.put h.identity h.mikrotik (fun _ => htakes trivial) nofun
    · contradiction
  | fail t =>
    rw [bindingStep] at hs
    obtain ⟨c, -, rfl⟩ := Option.map_eq_some_iff.mp hs
    exact h.put h.identity h.mikrotik (fun hopen => hopen.elim) nofun
  | release tenantId =>
    rw [← Option.some.inj hs, releaseKeyBinding]
    split
    · rename_i hrelease
      refine ⟨?_, ?_, h.checks, h.rebinding⟩
      · dsimp only
        rw [h.identity]
      · intro hmikrotik
        have hrow : s.row.isMikrotik = row.isMikrotik := by rw [h.identity]; rfl
        rw [← hrow, hrelease.2] at hmikrotik
        contradiction
    · exact ⟨h.identity, h.mikrotik, h.checks, h.rebinding⟩

end eligible

/-! ## Between two releases -/

/-- Of the checks that are not among the old ones: what was answered is the binding, and where the claim met no
row there is one. -/
def Bound (old : Registry BindingCheck) (s : BindingState) : Prop :=
  ∀ t c, old.get t = none → s.checks.get t = some c →
    (c.pc = .refreshing → s.row.apiKeyId ≠ none) ∧ (c.pc = .answered true → s.row.apiKeyId = some c.key.id)

section bound
variable {row : DeviceBindingRow} {s s' : BindingState} {a : BindingAction} {old : Registry BindingCheck}

theorem Bound.put (h : Bound old s) {t : Nat} {c : BindingCheck}
    (hrefreshing : c.pc = .refreshing → s.row.apiKeyId ≠ none)
    (hanswered : c.pc = .answered true → s.row.apiKeyId = some c.key.id) :
    Bound old { s with checks := s.checks.put t c } := by
  intro u c' hold hget
  rcases Registry.get_put_eq_some hget with ⟨-, rfl⟩ | ⟨-, hget⟩
  · exact ⟨hrefreshing, hanswered⟩
  · exact h u c' hold hget

/-- A claim takes an unbound row, which no check has been answered for; otherwise the row is bound. -/
theorem Bound.claim (h : Bound old s) (t : Nat) (c : BindingCheck) (htakes : s.row.Takes c.key) :
    Bound old ⟨(updateBinding c.key none s.row).1,
      s.checks.put t { c with pc := (updateBinding c.key none s.row).2 }⟩ := by
  rw [updateBinding]
  split
  · rename_i hunbound
    intro u c' hold hget
    rcases Registry.get_put_eq_some hget with ⟨-, rfl⟩ | ⟨-, hget⟩
    · exact ⟨nofun, fun _ => rfl⟩
    · obtain ⟨-, hanswered⟩ := h u c' hold hget
      refine ⟨fun _ => nofun, fun hpc => ?_⟩
      rw [hunbound.2] at hanswered
      exact nomatch hanswered hpc
  · rename_i hmissed
    exact h.put (fun _ hunbound => hmissed ⟨htakes.1, hunbound⟩) nofun

theorem bindingStep_bound (helig : Eligible .strict row s)
    (hstatus : row.status ≠ .suspended ∧ row.status ≠ .refused) (ha : a ≠ .release row.tenantId)
    (h : Bound old s) (hs : bindingStep .strict s a = some s') : Bound old s' := by
  cases a with
  | begin t key =>
    rw [bindingStep] at hs
    split at hs
    · rw [← Option.some.inj hs]
      have hstatus' : s.row.status ≠ .suspended ∧ s.row.status ≠ .refused := by
        rw [helig.identity]
        exact hstatus
      rw [ensureAgentBinding_strict hstatus']
      split
      · rename_i hok
        split
        · rename_i hbound
          obtain ⟨bound, hbound⟩ := Option.isSome_iff_exists.mp hbound
          refine h.put nofun fun _ => ?_
          rw [hbound, (mayAct_iff.mp hok).2 bound hbound]
        · exact h.put nofun nofun
      · exact h.put nofun nofun
    · contradiction
  | advance t =>
    rw [bindingStep, Option.bind_eq_some_iff] at hs
    obtain ⟨c, hc, hs⟩ := hs
    obtain ⟨next, hnext, rfl⟩ := Option.map_eq_some_iff.mp hs
    rw [advanceCheck] at hnext
    split at hnext
    · rename_i hpc
      have htakes : row.Takes c.key := helig.checks t c hc (hpc ▸ trivial)
      rw [← Option.some.inj hnext]
      exact h.claim t c (helig.takes.mpr htakes)
    · rename_i fromKeyId hpc
      exact nomatch helig.rebinding t c fromKeyId hc hpc
    · rename_i hpc
      rw [← Option.some.inj hnext]
      intro u c' hold hget
      rcases Registry.get_put_eq_some hget with ⟨rfl, rfl⟩ | ⟨-, hget⟩
      · refine ⟨nofun, fun hok => ?_⟩
        have hbound : s.row.apiKeyId ≠ none := (h _ c hold hc).1 hpc
        obtain ⟨bound, hbound⟩ := Option.ne_none_iff_exists'.mp hbound
        rw [hbound, (mayAct_iff.mp (BindingPc.answered.inj hok)).2 bound hbound]
      · exact h u c' hold hget
    · contradiction
  | fail t =>
    rw [bindingStep] at hs
    obtain ⟨c, -, rfl⟩ := Option.map_eq_some_iff.mp hs
    exact h.put nofun nofun
  | release tenantId =>
    rw [← Option.some.inj hs, releaseKeyBinding, if_neg]
    · exact h
    · rintro ⟨htenant, -⟩
      rw [helig.identity] at htenant
      exact ha (congrArg _ htenant.symm)

theorem run_bound {as : List BindingAction} (helig : Eligible .strict row s)
    (hstatus : row.status ≠ .suspended ∧ row.status ≠ .refused)
    (hrelease : BindingAction.release row.tenantId ∉ as) (h : Bound old s)
    (hs : run (bindingStep .strict) s as = some s') : Eligible .strict row s' ∧ Bound old s' := by
  have hok : StepsMeet (bindingStep .strict) (fun _ a => a ≠ .release row.tenantId) s as :=
    stepsMeet_of_mem fun a ha _ heq => hrelease (heq ▸ ha)
  refine run_invariant (P := fun s => Eligible .strict row s ∧ Bound old s) ?_ ⟨helig, h⟩ hok hs
  intro s a s' hinv ha hs
  exact ⟨bindingStep_eligible hinv.1 hs, bindingStep_bound hinv.1 hstatus ha hinv.2 hs⟩

end bound

/-- In strict mode, on a row that is neither suspended nor refused, in every interleaving of checks and releases:
the checks that begin, and end in `true`, in a part without a release by the row's tenant are all by one key of
that tenant, which is the binding; and a MikroTik row keeps its binding and is never accepted. -/
theorem binding_one_key (row : DeviceBindingRow) (before part : List BindingAction) (s s' : BindingState)
    (hstatus : row.status ≠ .suspended ∧ row.status ≠ .refused)
    (hbefore : run (bindingStep .strict) ⟨row, Registry.empty⟩ before = some s)
    (hpart : run (bindingStep .strict) s part = some s') (hrelease : .release row.tenantId ∉ part) :
    (∀ t key, s.checks.get t = none → s'.checks.get t = some ⟨key, .answered true⟩ →
        key.tenantId = row.tenantId ∧ s'.row.apiKeyId = some key.id ∧
        ∀ u key', s.checks.get u = none → s'.checks.get u = some ⟨key', .answered true⟩ → key' = key) ∧
      (row.isMikrotik = true → s'.row.apiKeyId = row.apiKeyId ∧
        ∀ t key, s'.checks.get t ≠ some ⟨key, .answered true⟩) := by
  have helig : Eligible .strict row s :=
    run_preserves (fun _ _ _ h hs => bindingStep_eligible h hs) (Eligible.init .strict row) hbefore
  have hold : Bound s.checks s := by
    intro t c hnone hget
    rw [hnone] at hget
    contradiction
  obtain ⟨helig', hbound⟩ := run_bound helig hstatus hrelease hold hpart
  have hkey : ∀ t key, s.checks.get t = none → s'.checks.get t = some ⟨key, .answered true⟩ →
      key.tenantId = row.tenantId ∧ s'.row.apiKeyId = some key.id := fun t key hnone hget =>
    ⟨(helig'.checks t _ hget trivial).1.symm, (hbound t _ hnone hget).2 rfl⟩
  refine ⟨fun t key hnone hget => ?_, fun hmikrotik => ⟨helig'.mikrotik hmikrotik, fun t key hget => ?_⟩⟩
  · obtain ⟨htenant, hid⟩ := hkey t key hnone hget
    refine ⟨htenant, hid, fun u key' hnone' hget' => ?_⟩
    obtain ⟨htenant', hid'⟩ := hkey u key' hnone' hget'
    obtain ⟨id, tenantId⟩ := key
    obtain ⟨id', tenantId'⟩ := key'
    rw [hid] at hid'
    rw [AgentKeyRef.mk.injEq]
    exact ⟨(Option.some.inj hid').symm, htenant'.trans htenant.symm⟩
  · rw [(helig'.checks t _ hget trivial).2] at hmikrotik
    contradiction

/-! ## Two keys racing -/

/-- An unbound device of tenant 1. -/
def unboundDevice : DeviceBindingRow := ⟨7, 1, none, none, .approved⟩

/-- Both keys of the tenant see the row unbound; the second claim comes too late. -/
def racingClaims : List BindingAction :=
  [.begin 1 ⟨10, 1⟩, .begin 2 ⟨11, 1⟩, .begin 3 ⟨20, 2⟩, .advance 1, .advance 2, .advance 2]

theorem binding_one_key_racing : ∃ s, run (bindingStep .strict) ⟨unboundDevice, Registry.empty⟩ racingClaims = some s ∧
    s.checks.get 1 = some ⟨⟨10, 1⟩, .answered true⟩ ∧ s.checks.get 2 = some ⟨⟨11, 1⟩, .answered false⟩ ∧
    s.row.apiKeyId = some 10 := by
  obtain ⟨s, hs⟩ : ∃ s, run (bindingStep .strict) ⟨unboundDevice, Registry.empty⟩ racingClaims = some s :=
    ⟨_, rfl⟩
  have hchecks : (run (bindingStep .strict) ⟨unboundDevice, Registry.empty⟩ racingClaims).map
      (fun s => (s.checks.get 1, s.checks.get 2)) =
        some (some ⟨⟨10, 1⟩, .answered true⟩, some ⟨⟨11, 1⟩, .answered false⟩) := by decide +kernel
  rw [hs] at hchecks
  obtain ⟨h1, h2⟩ := Prod.mk.inj (Option.some.inj hchecks)
  exact ⟨s, hs, h1, h2, ((binding_one_key unboundDevice [] racingClaims _ s (by decide) rfl hs (by decide)).1
    1 ⟨10, 1⟩ rfl h1).2.1⟩

end Obliguard.Server

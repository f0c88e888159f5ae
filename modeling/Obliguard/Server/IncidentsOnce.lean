import Obliguard.Lib.Accounts
import Obliguard.Server.IncidentLocks

/-!
# Live incidents open once

Nothing makes a resolved row active again (`AlertsKept`), so each row is opened by one commit and
resolved by one statement, and is reported by the call whose transaction that was: the rows that
calls opened and those that they reported are `Accounts`, and so are the rows resolved and returned.
-/

namespace Obliguard.Server

open ReadCommitted Runs

/-! ## Opened and resolved rows -/

/-- The row has been committed, and is not active. -/
def Closed (alerts : Store LiveAlert) (k : Nat) : Prop :=
  Settled alerts k ∧ ∀ r, (alerts.cells k).committed = some r → r.active = false

/-- What a step does to committed rows: it opens those that were not committed before, and no row
that was resolved becomes active. -/
structure AlertsKept (before after : Store LiveAlert) : Prop where
  settled : ∀ k, Settled before k → Settled after k
  closed : ∀ k, Closed before k → Closed after k
  opened : ∀ k ∈ newlyActive before after, ¬ Settled before k ∧ Settled after k

section kept
variable {hashtext : Incident → Int} {s s' : AlertState} {before after : Store LiveAlert}
  {c d k : Nat} {call : AlertCall}

theorem mem_newlyActive : k ∈ newlyActive before after ↔ (before.cells k).committed = none ∧
    ∃ r, (after.cells k).committed = some r ∧ r.active = true := by
  rw [newlyActive, List.mem_filter, List.mem_range, Bool.and_eq_true_iff, Option.isNone_iff_eq_none,
    Option.any_eq_true]
  constructor
  · exact And.right
  · rintro ⟨hnone, r, hr, hactive⟩
    exact ⟨Store.lt_seq_of_committed hr, hnone, r, hr, hactive⟩

theorem mem_newlyResolved : k ∈ newlyResolved before after ↔
    (∃ r, (before.cells k).committed = some r ∧ r.active = true) ∧
      ∃ r, (after.cells k).committed = some r ∧ r.active = false := by
  rw [newlyResolved, List.mem_filter, List.mem_range, Bool.and_eq_true_iff, Option.any_eq_true,
    Option.any_eq_true]
  simp only [Bool.not_eq_true']
  constructor
  · exact And.right
  · rintro ⟨⟨r, hr, hactive⟩, hafter⟩
    exact ⟨Store.lt_seq_of_committed hr, ⟨r, hr, hactive⟩, hafter⟩

theorem closed_of_newlyResolved (hk : k ∈ newlyResolved before after) : Closed after k := by
  obtain ⟨-, r, hr, hactive⟩ := mem_newlyResolved.mp hk
  refine ⟨⟨Store.lt_seq_of_committed hr, by simp [hr]⟩, ?_⟩
  intro r' hr'
  obtain rfl := Option.some.inj (hr.symm.trans hr')
  exact hactive

theorem newlyActive_of_writesBy (h : WritesBy c before after) : newlyActive before after = [] := by
  refine List.eq_nil_iff_forall_not_mem.mpr fun k hk => ?_
  obtain ⟨hnone, r, hr, -⟩ := mem_newlyActive.mp hk
  rw [h.committed, hnone] at hr
  contradiction

theorem newlyActive_of_fades (h : Fades before after) : newlyActive before after = [] := by
  refine List.eq_nil_iff_forall_not_mem.mpr fun k hk => ?_
  obtain ⟨hnone, r, hr, hactive⟩ := mem_newlyActive.mp hk
  rcases h.cells k with heq | ⟨-, -, hno⟩
  · rw [heq, hnone] at hr
    contradiction
  · rw [(hno r hr).1] at hactive
    contradiction

theorem kept_of_writesBy (h : WritesBy c before after) : AlertsKept before after := by
  refine ⟨fun k => settled_of_writesBy h, ?_, ?_⟩
  · intro k hk
    refine ⟨settled_of_writesBy h hk.1, ?_⟩
    intro r hr
    rw [h.committed] at hr
    exact hk.2 r hr
  · intro k hk
    rw [newlyActive_of_writesBy h] at hk
    contradiction

theorem kept_of_fades (h : Fades before after) : AlertsKept before after := by
  refine ⟨fun k => settled_of_fades h, ?_, ?_⟩
  · intro k hk
    refine ⟨settled_of_fades h hk.1, ?_⟩
    intro r hr
    rcases h.cells k with heq | ⟨-, -, hno⟩
    · exact hk.2 r (heq ▸ hr)
    · exact (hno r hr).1
  · intro k hk
    rw [newlyActive_of_fades h] at hk
    contradiction

theorem committed_commit {r : LiveAlert} :
    ((s.alerts.commit c).cells k).committed = some r ↔
      (s.alerts.cells k).working = some (c, r) ∨
        (∀ r', (s.alerts.cells k).working ≠ some (c, r')) ∧ (s.alerts.cells k).committed = some r := by
  show ((s.alerts.cells k).commit c).committed = _ ↔ _
  rw [committed_commit_eq_view]
  by_cases howned : (s.alerts.cells k).owned (some c) = true
  · obtain ⟨w, hw⟩ := Cell.owned_iff.mp howned
    rw [Cell.view_of_working hw, hw]
    simp
  · rw [Cell.view_of_not_owned (Bool.eq_false_iff.mpr howned)]
    have hno : ∀ r', (s.alerts.cells k).working ≠ some (c, r') :=
      fun r' hr' => howned (Cell.owned_iff.mpr ⟨r', hr'⟩)
    simp [hno]

theorem kept_commit (h : AlertInv hashtext s) (c : Nat) : AlertsKept s.alerts (s.alerts.commit c) := by
  refine ⟨fun k => settled_commit c, ?_, ?_⟩
  · intro k hk
    refine ⟨settled_commit c hk.1, ?_⟩
    intro r hr
    rcases committed_commit.mp hr with hw | ⟨-, hr⟩
    · by_contra hactive
      obtain ⟨call, -, hholds⟩ := h.cells k c r hw
      obtain ⟨r₀, hr₀, hr₀', -⟩ := hholds.replaces (hk.1.2 (by simp [hw]))
      rw [hk.2 r₀ hr₀] at hr₀'
      contradiction
    · exact hk.2 r hr
  · intro k hk
    obtain ⟨hnone, r, hr, -⟩ := mem_newlyActive.mp hk
    refine ⟨fun hsettled => ?_, Store.lt_seq_of_committed hr, by simp [hr]⟩
    rcases committed_commit.mp hr with hw | ⟨-, hr⟩
    · exact hsettled.2 (by simp [hw]) hnone
    · rw [hnone] at hr
      contradiction

theorem mem_newlyActive_commit (h : AlertInv hashtext s) (hc : s.calls.get c = some call) :
    k ∈ newlyActive s.alerts (s.alerts.commit c) ↔
      ∃ input, call = .raiseCommitting input k true := by
  rw [mem_newlyActive]
  constructor
  · rintro ⟨hnone, r, hr, hactive⟩
    rcases committed_commit.mp hr with hw | ⟨-, hr⟩
    · obtain ⟨call', hc', hholds⟩ := h.cells k c r hw
      obtain rfl := Option.some.inj (hc ▸ hc')
      have hno : ¬ Replaces (s.alerts.cells k).committed r := by
        rintro ⟨r₀, hr₀, -⟩
        rw [hnone] at hr₀
        contradiction
      unfold AlertCall.Holds at hholds
      split at hholds
      · exact absurd hholds.2.2 hno
      · exact absurd hholds.2.2 hno
      · rename_i input id created
        rcases hholds.2 with ⟨-, hold⟩ | ⟨-, rfl, hold⟩
        · exact absurd hold hno
        · split at hold
          · rename_i hcreated
            exact ⟨input, by rw [hcreated]⟩
          · exact absurd hold hno
      · exact absurd hholds.2.2 hno
      · contradiction
    · rw [hnone] at hr
      contradiction
  · rintro ⟨input, rfl⟩
    obtain ⟨r, hr, hactive⟩ := (h.calls c _ hc).wrote
    obtain ⟨call', hc', hholds⟩ := h.cells k c r hr
    obtain rfl := Option.some.inj (hc ▸ hc')
    refine ⟨?_, r, committed_commit.mpr (.inl hr), hactive⟩
    rcases hholds.2 with ⟨hclosed, -⟩ | ⟨-, -, hold⟩
    · rw [hactive] at hclosed
      contradiction
    · exact hold

theorem newlyActive_commit_eq_nil (h : AlertInv hashtext s) (hc : s.calls.get c = some call)
    (hno : ∀ input k, call ≠ .raiseCommitting input k true) :
    newlyActive s.alerts (s.alerts.commit c) = [] := by
  refine List.eq_nil_iff_forall_not_mem.mpr fun k hk => ?_
  obtain ⟨input, heq⟩ := (mem_newlyActive_commit h hc).mp hk
  exact hno input k heq

theorem mem_newlyResolved_commit {sel : ResolveIncidentsInput} {rest : List (List Int)}
    {ids got : List Nat} (h : AlertInv hashtext s)
    (hc : s.calls.get c = some (.resolveCommitting sel rest ids got)) :
    k ∈ newlyResolved s.alerts (s.alerts.commit c) ↔ k ∈ got := by
  have hheld : ∀ r, (s.alerts.cells k).working = some (c, r) →
      k ∈ got ∧ r.active = false ∧ Replaces (s.alerts.cells k).committed r := by
    intro r hr
    obtain ⟨call', hc', hholds⟩ := h.cells k c r hr
    obtain rfl := Option.some.inj (hc ▸ hc')
    exact hholds
  rw [mem_newlyResolved]
  constructor
  · rintro ⟨⟨r₀, hr₀, hactive⟩, r, hr, hclosed⟩
    rcases committed_commit.mp hr with hw | ⟨-, hr⟩
    · exact (hheld r hw).1
    · obtain rfl := Option.some.inj (hr₀.symm.trans hr)
      rw [hactive] at hclosed
      contradiction
  · intro hk
    obtain ⟨r, hr⟩ := (h.calls c _ hc).wrote.2 k hk
    obtain ⟨-, hclosed, r₀, hr₀, hactive, -⟩ := hheld r hr
    exact ⟨⟨r₀, hr₀, hactive⟩, r, committed_commit.mpr (.inl hr), hclosed⟩

end kept

/-! ## Reports -/

/-- The row that a call is still to report as created. -/
def AlertCall.reporting : AlertCall → List Nat
  | .raiseTrimming _ id | .raiseAnnouncing id => [id]
  | _ => []

/-- The rows that it has resolved, and is still to return. -/
def AlertCall.returning : AlertCall → List Nat
  | .resolveLocking _ _ _ ids | .resolveCommitting _ _ ids _ => ids
  | _ => []

def AlertState.reporting (s : AlertState) (c : Nat) : List Nat :=
  ((s.calls.get c).map AlertCall.reporting).getD []

def AlertState.returning (s : AlertState) (c : Nat) : List Nat :=
  ((s.calls.get c).map AlertCall.returning).getD []

/-- The call has ended. -/
def AlertState.Over (s : AlertState) (c : Nat) : Prop := c < s.started ∧ s.calls.get c = none

/-- What a step can do to the calls: `c` goes on to `call'`, or ends. -/
structure CallStep (s s' : AlertState) (c : Nat) (call' : Option AlertCall) : Prop where
  started : s'.started = s.started
  other : ∀ d, d ≠ c → s'.calls.get d = s.calls.get d
  self : s'.calls.get c = call'

structure AlertHist (s : AlertState) : Prop where
  opened : ∀ k ∈ s.opened, Settled s.alerts k
  resolved : ∀ k ∈ s.resolved, Closed s.alerts k
  openedNodup : s.opened.Nodup
  resolvedNodup : s.resolved.Nodup
  openedBy : s.openedBy.map Prod.snd = s.opened
  resolvedBy : (s.resolvedBy.map Prod.snd).Sublist s.resolved
  reports : Accounts s.openedBy s.created s.reporting s.Over
  returns : Accounts s.resolvedBy s.returned s.returning s.Over

section hist
variable {hashtext : Incident → Int} {s s' : AlertState} {c d k : Nat} {call : AlertCall}
  {call' : Option AlertCall} {a : AlertAction}

theorem reporting_of_over (h : s.Over c) : s.reporting c = [] := by simp [AlertState.reporting, h.2]

theorem returning_of_over (h : s.Over c) : s.returning c = [] := by simp [AlertState.returning, h.2]

theorem CallStep.over (h : CallStep s s' c call') (hc : s.calls.get c = some call)
    (hd : s.Over d) : s'.Over d := by
  have hdc : d ≠ c := by
    rintro rfl
    rw [hd.2] at hc
    contradiction
  exact ⟨h.started ▸ hd.1, (h.other d hdc).trans hd.2⟩

theorem CallStep.over_iff (h : CallStep s s' c none) (hlt : c < s.started) :
    s'.Over d ↔ d = c ∨ s.Over d := by
  unfold AlertState.Over
  rw [h.started]
  by_cases hdc : d = c
  · subst hdc
    simp [h.self, hlt]
  · simp [hdc, h.other d hdc]

theorem CallStep.reporting (h : CallStep s s' c call') : s'.reporting =
    Function.update s.reporting c ((call'.map AlertCall.reporting).getD []) := by
  funext d
  by_cases hd : d = c
  · rw [hd, Function.update_self, AlertState.reporting, h.self]
  · rw [Function.update_of_ne hd, AlertState.reporting, h.other d hd]
    rfl

theorem CallStep.returning (h : CallStep s s' c call') : s'.returning =
    Function.update s.returning c ((call'.map AlertCall.returning).getD []) := by
  funext d
  by_cases hd : d = c
  · rw [hd, Function.update_self, AlertState.returning, h.self]
  · rw [Function.update_of_ne hd, AlertState.returning, h.other d hd]
    rfl

theorem reporting_eq (hc : s.calls.get c = some call) : s.reporting c = call.reporting := by
  simp [AlertState.reporting, hc]

theorem returning_eq (hc : s.calls.get c = some call) : s.returning c = call.returning := by
  simp [AlertState.returning, hc]

theorem CallStep.reporting_same (h : CallStep s s' c call') (hc : s.calls.get c = some call)
    (hsame : (call'.map AlertCall.reporting).getD [] = call.reporting) (d : Nat) :
    s'.reporting d = s.reporting d := by
  rw [h.reporting, hsame, ← reporting_eq hc, Function.update_eq_self]

theorem CallStep.returning_same (h : CallStep s s' c call') (hc : s.calls.get c = some call)
    (hsame : (call'.map AlertCall.returning).getD [] = call.returning) (d : Nat) :
    s'.returning d = s.returning d := by
  rw [h.returning, hsame, ← returning_eq hc, Function.update_eq_self]

theorem alertHist_rows (h : AlertHist s) (hk : AlertsKept s.alerts s'.alerts) :
    (∀ k ∈ s.opened ++ newlyActive s.alerts s'.alerts, Settled s'.alerts k) ∧
      (s.opened ++ newlyActive s.alerts s'.alerts).Nodup ∧
      (∀ k ∈ s.resolved ++ newlyResolved s.alerts s'.alerts, Closed s'.alerts k) ∧
      (s.resolved ++ newlyResolved s.alerts s'.alerts).Nodup := by
  refine ⟨?_, ?_, ?_, ?_⟩
  · intro k hmem
    rcases List.mem_append.mp hmem with hmem | hmem
    · exact hk.settled k (h.opened k hmem)
    · exact (hk.opened k hmem).2
  · refine List.nodup_append.mpr ⟨h.openedNodup, List.nodup_range.filter _, ?_⟩
    rintro k hopened j hj rfl
    exact (hk.opened k hj).1 (h.opened k hopened)
  · intro k hmem
    rcases List.mem_append.mp hmem with hmem | hmem
    · exact hk.closed k (h.resolved k hmem)
    · exact closed_of_newlyResolved hmem
  · refine List.nodup_append.mpr ⟨h.resolvedNodup, List.nodup_range.filter _, ?_⟩
    rintro k hresolved j hj rfl
    obtain ⟨⟨r, hr, hactive⟩, -⟩ := mem_newlyResolved.mp hj
    rw [(h.resolved k hresolved).2 r hr] at hactive
    contradiction

theorem alertHist_record (h : AlertHist s) (hk : AlertsKept s.alerts s'.alerts)
    (hopenedBy : (s.record a s').openedBy.map Prod.snd =
      s.opened ++ newlyActive s.alerts s'.alerts)
    (hreports : Accounts (s.record a s').openedBy s'.created s'.reporting s'.Over)
    (hreturns : Accounts (s.record a s').resolvedBy s'.returned s'.returning s'.Over) :
    AlertHist (s.record a s') := by
  obtain ⟨hopened, hopenedNodup, hresolved, hresolvedNodup⟩ := alertHist_rows h hk
  refine ⟨hopened, hresolved, hopenedNodup, hresolvedNodup, hopenedBy, ?_, hreports, hreturns⟩
  show ((s.record a s').resolvedBy.map Prod.snd).Sublist
    (s.resolved ++ newlyResolved s.alerts s'.alerts)
  have hkeep := h.resolvedBy.trans
    (List.sublist_append_left s.resolved (newlyResolved s.alerts s'.alerts))
  unfold AlertState.record
  cases a with
  | next c now =>
    dsimp only
    split
    · rw [List.map_append, List.map_map]
      exact h.resolvedBy.append (by simp [Function.comp_def])
    · exact hkeep
  | _ => exact hkeep

theorem openedBy_of_none (hnew : newlyActive s.alerts s'.alerts = []) :
    (s.record a s').openedBy = s.openedBy := by
  unfold AlertState.record
  cases a with
  | next c now => simp [hnew]
  | _ => rfl

theorem resolvedBy_of_not_resolver (hno : ∀ c now, a = .next c now → resolverOf s c = false) :
    (s.record a s').resolvedBy = s.resolvedBy := by
  unfold AlertState.record
  cases a with
  | next c now => simp [hno c now rfl]
  | _ => rfl

theorem alertHist_keep (h : AlertHist s) (hk : AlertsKept s.alerts s'.alerts)
    (hnew : newlyActive s.alerts s'.alerts = [])
    (hresolver : ∀ c now, a = .next c now → resolverOf s c = false)
    (hcreated : s'.created = s.created) (hreturned : s'.returned = s.returned)
    (hreporting : ∀ d, s'.reporting d = s.reporting d)
    (hreturning : ∀ d, s'.returning d = s.returning d) (hover : ∀ d, s.Over d → s'.Over d) :
    AlertHist (s.record a s') := by
  apply alertHist_record h hk
  · rw [openedBy_of_none hnew, h.openedBy, hnew, List.append_nil]
  · rw [openedBy_of_none hnew, hcreated]
    exact h.reports.keep hreporting hover fun d => reporting_of_over
  · rw [resolvedBy_of_not_resolver hresolver, hreturned]
    exact h.returns.keep hreturning hover fun d => returning_of_over

theorem callStep_setCall (call' : AlertCall) (hcalls : s'.calls = s.calls)
    (hstarted : s'.started = s.started) : CallStep s (s'.setCall c call') c (some call') := by
  refine ⟨hstarted, ?_, Registry.get_put_self⟩
  intro d hd
  rw [← hcalls]
  exact Registry.get_put_of_ne hd

theorem callStep_endCall (hcalls : s'.calls = s.calls) (hstarted : s'.started = s.started) :
    CallStep s (s'.endCall c) c none := by
  refine ⟨hstarted, ?_, Registry.get_erase_self⟩
  intro d hd
  rw [← hcalls]
  exact Registry.get_erase_of_ne hd

/-- A call goes on, or ends, with what it had to report and no more. -/
structure QuietStep (s s' : AlertState) (c : Nat) (call : AlertCall) : Prop where
  kept : AlertsKept s.alerts s'.alerts
  none : newlyActive s.alerts s'.alerts = []
  created : s'.created = s.created
  returned : s'.returned = s.returned
  calls : ∃ call', CallStep s s' c call' ∧
    (call'.map AlertCall.reporting).getD [] = call.reporting ∧
    (call'.map AlertCall.returning).getD [] = call.returning

theorem alertHist_quiet {now : Int} (h : AlertHist s) (hc : s.calls.get c = some call)
    (hquiet : QuietStep s s' c call) (hresolver : resolverOf s c = false) :
    AlertHist (s.record (.next c now) s') := by
  obtain ⟨call', hstep, hreporting, hreturning⟩ := hquiet.calls
  refine alertHist_keep h hquiet.kept hquiet.none ?_ hquiet.created hquiet.returned
    (hstep.reporting_same hc hreporting) (hstep.returning_same hc hreturning) fun d => hstep.over hc
  intro d now' heq
  obtain ⟨rfl, -⟩ := AlertAction.next.inj heq
  exact hresolver

section quiet
variable {alerts : Store LiveAlert} {locks : List (Int × Nat)} {call₁ : AlertCall}

theorem quiet_of_writesBy (hw : WritesBy c s.alerts alerts)
    (hreporting : call₁.reporting = call.reporting) (hreturning : call₁.returning = call.returning) :
    QuietStep s ({ s with alerts := alerts, locks := locks }.setCall c call₁) c call :=
  ⟨kept_of_writesBy hw, newlyActive_of_writesBy hw, rfl, rfl, some call₁,
    callStep_setCall call₁ rfl rfl, hreporting, hreturning⟩

theorem quiet_of_fades (hf : Fades s.alerts alerts)
    (hreporting : call₁.reporting = call.reporting) (hreturning : call₁.returning = call.returning) :
    QuietStep s ({ s with alerts := alerts, locks := locks }.setCall c call₁) c call :=
  ⟨kept_of_fades hf, newlyActive_of_fades hf, rfl, rfl, some call₁,
    callStep_setCall call₁ rfl rfl, hreporting, hreturning⟩

theorem quiet_endCall (hkept : AlertsKept s.alerts alerts) (hnone : newlyActive s.alerts alerts = [])
    (hreporting : call.reporting = []) (hreturning : call.returning = []) :
    QuietStep s ({ s with alerts := alerts, locks := locks }.endCall c) c call :=
  ⟨hkept, hnone, rfl, rfl, none, callStep_endCall rfl rfl, hreporting.symm, hreturning.symm⟩

end quiet

theorem quiet_next {now : Int} (hinv : AlertInv hashtext s) (hc : s.calls.get c = some call)
    (hcreated : ∀ input id, call ≠ .raiseCommitting input id true)
    (hannounced : ∀ id, call ≠ .raiseAnnouncing id)
    (hresolved : ∀ sel rest ids got, call ≠ .resolveCommitting sel rest ids got)
    (hs : alertNext hashtext s c now call = some s') : QuietStep s s' c call := by
  have hsame : WritesBy c s.alerts s.alerts := WritesBy.refl _ _
  have hafter : ∀ input now' keep, (afterClosing input now' keep).reporting = [] ∧
      (afterClosing input now' keep).returning = [] := by
    intro input now' keep
    cases keep with
    | none => exact ⟨rfl, rfl⟩
    | some keep => exact ⟨rfl, rfl⟩
  cases call with
  | raiseLocking input at' =>
    obtain ⟨s₁, hlock, rfl⟩ := Option.map_eq_some_iff.mp hs
    obtain ⟨-, rfl⟩ := alertInv_lock hinv hlock
    exact quiet_of_writesBy hsame rfl rfl
  | raiseReading input at' =>
    unfold alertNext at hs
    dsimp only at hs
    split at hs
    · cases hs
      exact quiet_of_writesBy hsame (hafter _ _ _).1 (hafter _ _ _).2
    · cases hs
      exact quiet_of_writesBy hsame rfl rfl
  | raiseClosing input at' keep stale =>
    unfold alertNext at hs
    dsimp only at hs
    split at hs
    · rename_i hupdate
      cases hs
      exact quiet_of_writesBy (writesBy_update hupdate) (hafter _ _ _).1 (hafter _ _ _).2
    · contradiction
  | raiseBumping input at' keep =>
    unfold alertNext at hs
    dsimp only at hs
    split at hs
    · cases hs
      exact quiet_of_writesBy hsame rfl rfl
    · rename_i hupdate
      cases hs
      exact quiet_of_writesBy (writesBy_update hupdate) rfl rfl
    · contradiction
  | raiseInserting input at' =>
    unfold alertNext at hs
    dsimp only at hs
    split at hs
    · rename_i hinsert
      cases hs
      exact quiet_of_writesBy (writesBy_insert hinsert) rfl rfl
    · contradiction
  | raiseCommitting input id created =>
    cases created with
    | true => exact absurd rfl (hcreated input id)
    | false =>
      cases hs
      exact quiet_endCall (kept_commit hinv c) (newlyActive_commit_eq_nil hinv hc (by simp)) rfl rfl
  | raiseTrimming input id =>
    obtain ⟨s₁, htrim, rfl⟩ := Option.map_eq_some_iff.mp hs
    obtain ⟨hfades, heq⟩ := fades_delete htrim
    rw [heq]
    exact quiet_of_fades hfades rfl rfl
  | raiseAnnouncing id => exact absurd rfl (hannounced id)
  | resolveReading sel =>
    unfold alertNext at hs
    dsimp only at hs
    split at hs
    · cases hs
      exact quiet_endCall (kept_of_writesBy hsame) (newlyActive_of_writesBy hsame) rfl rfl
    · cases hs
      exact quiet_of_writesBy hsame rfl rfl
  | resolveLocking sel locks rest ids =>
    cases locks with
    | nil =>
      unfold alertNext at hs
      dsimp only at hs
      split at hs
      · rename_i hupdate
        cases hs
        exact quiet_of_writesBy (writesBy_update hupdate) rfl rfl
      · contradiction
    | cons l locks =>
      obtain ⟨s₁, hlock, rfl⟩ := Option.map_eq_some_iff.mp hs
      obtain ⟨-, rfl⟩ := alertInv_lock hinv hlock
      exact quiet_of_writesBy hsame rfl rfl
  | resolveCommitting sel rest ids got => exact absurd rfl (hresolved sel rest ids got)
  | cleanupResolving retentionDays =>
    unfold alertNext at hs
    dsimp only at hs
    split at hs
    · rename_i hupdate
      cases hs
      have hfades := fades_update (by simp [LiveAlert.resolve, LiveAlert.active,
        LiveAlert.incident]) hupdate
      exact quiet_of_fades hfades rfl rfl
    · contradiction
  | cleanupDeleting retentionDays =>
    obtain ⟨s₁, hdelete, rfl⟩ := Option.map_eq_some_iff.mp hs
    obtain ⟨hfades, heq⟩ := fades_delete hdelete
    rw [heq]
    exact quiet_endCall (kept_of_fades hfades) (newlyActive_of_fades hfades) rfl rfl

theorem alertHist_start (hinv : AlertInv hashtext s) (h : AlertHist s)
    (ha : ∀ c now, a ≠ .next c now) (hreporting : call.reporting = [])
    (hreturning : call.returning = []) : AlertHist (s.record a (s.start call)) := by
  have hfresh : s.calls.get s.started = none := by
    cases hget : s.calls.get s.started with
    | none => rfl
    | some call' => exact absurd (hinv.calls _ _ hget).numbered (Nat.lt_irrefl _)
  have hrows : WritesBy s.started s.alerts (s.start call).alerts := WritesBy.refl _ _
  apply alertHist_keep h (kept_of_writesBy hrows) (newlyActive_of_writesBy hrows)
  · intro c now heq
    exact absurd heq (ha c now)
  · rfl
  · rfl
  · intro d
    by_cases hd : d = s.started
    · subst hd
      rw [reporting_eq (Registry.get_put_self (b := call)), hreporting]
      simp [AlertState.reporting, hfresh]
    · exact congrArg (fun o => (Option.map _ o).getD []) (Registry.get_put_of_ne hd)
  · intro d
    by_cases hd : d = s.started
    · subst hd
      rw [returning_eq (Registry.get_put_self (b := call)), hreturning]
      simp [AlertState.returning, hfresh]
    · exact congrArg (fun o => (Option.map _ o).getD []) (Registry.get_put_of_ne hd)
  · rintro d ⟨hlt, hnone⟩
    exact ⟨Nat.lt_succ_of_lt hlt, (Registry.get_put_of_ne hlt.ne).trans hnone⟩

theorem not_over (hc : s.calls.get c = some call) : ¬ s.Over c := by
  rintro ⟨-, hnone⟩
  rw [hnone] at hc
  contradiction

theorem alertHist_raiseCommitting {input : RaiseIncidentInput} {id : Nat} {now : Int}
    (hinv : AlertInv hashtext s) (h : AlertHist s)
    (hc : s.calls.get c = some (.raiseCommitting input id true)) :
    AlertHist (s.record (.next c now) ((s.commit c).setCall c (.raiseTrimming input id))) := by
  have hkept := kept_commit hinv c
  have hnew : ∀ k, k ∈ newlyActive s.alerts (s.alerts.commit c) ↔ k ∈ [id] := by
    intro k
    rw [mem_newlyActive_commit hinv hc]
    simp [eq_comm]
  have hresolver : ∀ d now', AlertAction.next c now = .next d now' → resolverOf s d = false := by
    intro d now' heq
    obtain ⟨rfl, -⟩ := AlertAction.next.inj heq
    simp [resolverOf, hc]
  have hstep : CallStep s ((s.commit c).setCall c (.raiseTrimming input id)) c
      (some (.raiseTrimming input id)) := callStep_setCall _ rfl rfl
  have hunreported : ∀ i ∈ [id], (c, i) ∉ s.openedBy := by
    intro i hi hby
    have hopened : i ∈ s.opened := by
      rw [← h.openedBy]
      exact List.mem_map_of_mem hby
    exact (hkept.opened i ((hnew i).mpr hi)).1 (h.opened i hopened)
  have howed := h.reports.owe (List.nodup_singleton id) hnew hunreported (not_over hc)
  apply alertHist_record h hkept
  · show (s.openedBy ++ (newlyActive s.alerts (s.alerts.commit c)).map (c, ·)).map Prod.snd = _
    rw [List.map_append, h.openedBy, List.map_map]
    simp [Function.comp_def, AlertState.setCall, AlertState.commit]
  · refine howed.keep ?_ (fun d => hstep.over hc) fun d => reporting_of_over
    intro d
    rw [hstep.reporting, reporting_eq hc]
    rfl
  · rw [resolvedBy_of_not_resolver hresolver]
    exact h.returns.keep (hstep.returning_same hc rfl) (fun d => hstep.over hc)
      fun d => returning_of_over

theorem alertHist_raiseAnnouncing {id : Nat} {now : Int} (hinv : AlertInv hashtext s)
    (h : AlertHist s) (hc : s.calls.get c = some (.raiseAnnouncing id)) :
    AlertHist (s.record (.next c now)
      ({ s with created := s.created ++ [(c, id)] }.endCall c)) := by
  have hresolver : ∀ d now', AlertAction.next c now = .next d now' → resolverOf s d = false := by
    intro d now' heq
    obtain ⟨rfl, -⟩ := AlertAction.next.inj heq
    simp [resolverOf, hc]
  have hstep : CallStep s ({ s with created := s.created ++ [(c, id)] }.endCall c) c none :=
    callStep_endCall rfl rfl
  have hrows : WritesBy c s.alerts
      ({ s with created := s.created ++ [(c, id)] }.endCall c).alerts := WritesBy.refl _ _
  have hnew := newlyActive_of_writesBy hrows
  have hsettled := h.reports.settle (not_over hc)
  rw [reporting_eq hc] at hsettled
  apply alertHist_record h (kept_of_writesBy hrows)
  · rw [openedBy_of_none hnew, h.openedBy, hnew, List.append_nil]
  · rw [openedBy_of_none hnew]
    refine hsettled.keep ?_ ?_ fun d => reporting_of_over
    · intro d
      rw [hstep.reporting]
      rfl
    · intro d hd
      exact (hstep.over_iff (hinv.calls c _ hc).numbered).mpr hd
  · rw [resolvedBy_of_not_resolver hresolver]
    exact h.returns.keep (hstep.returning_same hc rfl) (fun d => hstep.over hc)
      fun d => returning_of_over

theorem alertHist_resolved {sel : ResolveIncidentsInput} {rest : List (List Int)}
    {ids got : List Nat} {now : Int} (hinv : AlertInv hashtext s) (h : AlertHist s)
    (hc : s.calls.get c = some (.resolveCommitting sel rest ids got))
    (hstep : CallStep s s' c call') (halerts : s'.alerts = s.alerts.commit c)
    (hcreated : s'.created = s.created)
    (hreporting : (call'.map AlertCall.reporting).getD [] = [])
    (hreturns : ∀ owed, Accounts owed s.returned (Function.update s.returning c (ids ++ got)) s.Over →
      Accounts owed s'.returned s'.returning s'.Over) :
    AlertHist (s.record (.next c now) s') := by
  have hkept := kept_commit hinv c
  have hnone := newlyActive_commit_eq_nil hinv hc (by simp)
  have hunresolved : ∀ i ∈ got, (c, i) ∉ s.resolvedBy := by
    intro i hi hby
    have hresolved := h.resolvedBy.subset (List.mem_map_of_mem hby)
    obtain ⟨⟨r, hr, hactive⟩, -⟩ := mem_newlyResolved.mp ((mem_newlyResolved_commit hinv hc).mpr hi)
    rw [(h.resolved i hresolved).2 r hr] at hactive
    contradiction
  have howed := h.returns.owe (hinv.calls c _ hc).wrote.1 (fun _ => mem_newlyResolved_commit hinv hc)
    hunresolved (not_over hc)
  rw [returning_eq hc] at howed
  have hby : (s.record (.next c now) s').resolvedBy =
      s.resolvedBy ++ (newlyResolved s.alerts s'.alerts).map (c, ·) := by
    simp [AlertState.record, resolverOf, hc]
  rw [← halerts] at hkept hnone howed
  apply alertHist_record h hkept
  · rw [openedBy_of_none hnone, h.openedBy, hnone, List.append_nil]
  · rw [openedBy_of_none hnone, hcreated]
    exact h.reports.keep (hstep.reporting_same hc hreporting) (fun d => hstep.over hc)
      fun d => reporting_of_over
  · rw [hby]
    exact hreturns _ howed

theorem alertHist_resolveCommitting {sel : ResolveIncidentsInput} {rest : List (List Int)}
    {ids got : List Nat} {now : Int} (hinv : AlertInv hashtext s) (h : AlertHist s)
    (hc : s.calls.get c = some (.resolveCommitting sel rest ids got)) :
    AlertHist (s.record (.next c now) ((s.commit c).nextChunk c sel rest (ids ++ got))) := by
  cases rest with
  | cons chunk rest =>
    have hstep : CallStep s ((s.commit c).nextChunk c sel (chunk :: rest) (ids ++ got)) c
        (some (.resolveLocking sel chunk rest (ids ++ got))) := callStep_setCall _ rfl rfl
    refine alertHist_resolved hinv h hc hstep rfl rfl rfl ?_
    intro owed howed
    exact howed.keep (congrFun hstep.returning) (fun d => hstep.over hc) fun d => returning_of_over
  | nil =>
    have hstep : CallStep s ((s.commit c).nextChunk c sel [] (ids ++ got)) c none :=
      callStep_endCall rfl rfl
    refine alertHist_resolved hinv h hc hstep rfl rfl rfl ?_
    intro owed howed
    have hsettled := howed.settle (not_over hc)
    rw [Function.update_self, Function.update_idem] at hsettled
    refine hsettled.keep (congrFun hstep.returning) ?_ fun d => returning_of_over
    intro d hd
    exact (hstep.over_iff (hinv.calls c _ hc).numbered).mpr hd

theorem alertHist_next {now : Int} (hinv : AlertInv hashtext s) (h : AlertHist s)
    (hc : s.calls.get c = some call) (hs : alertNext hashtext s c now call = some s') :
    AlertHist (s.record (.next c now) s') := by
  by_cases hcreated : ∃ input id, call = .raiseCommitting input id true
  · obtain ⟨input, id, rfl⟩ := hcreated
    cases hs
    exact alertHist_raiseCommitting hinv h hc
  by_cases hannounced : ∃ id, call = .raiseAnnouncing id
  · obtain ⟨id, rfl⟩ := hannounced
    cases hs
    exact alertHist_raiseAnnouncing hinv h hc
  by_cases hresolved : ∃ sel rest ids got, call = .resolveCommitting sel rest ids got
  · obtain ⟨sel, rest, ids, got, rfl⟩ := hresolved
    cases hs
    exact alertHist_resolveCommitting hinv h hc
  push Not at hcreated hannounced hresolved
  refine alertHist_quiet h hc (quiet_next hinv hc hcreated hannounced hresolved hs) ?_
  cases call with
  | resolveCommitting sel rest ids got => exact absurd rfl (hresolved sel rest ids got)
  | _ => simp [resolverOf, hc]

theorem alertHist_step (hinv : AlertInv hashtext s) (h : AlertHist s)
    (hs : alertStep hashtext s a = some s') : AlertHist s' := by
  obtain ⟨s₁, hact, rfl⟩ := Option.map_eq_some_iff.mp hs
  cases a with
  | raise input now =>
    simp only [alertAct] at hact
    split at hact
    · cases hact
      exact alertHist_start hinv h (by simp) rfl rfl
    · contradiction
  | resolve sel =>
    simp only [alertAct] at hact
    split at hact
    · contradiction
    · cases hact
      exact alertHist_start hinv h (by simp) rfl rfl
  | trim tenantId =>
    obtain ⟨hfades, heq⟩ := fades_delete hact
    rw [heq]
    exact alertHist_keep h (kept_of_fades hfades) (newlyActive_of_fades hfades) (by simp) rfl rfl
      (fun _ => rfl) (fun _ => rfl) fun _ hd => hd
  | cleanup retentionDays =>
    cases hact
    exact alertHist_start hinv h (by simp) rfl rfl
  | setDevices devices =>
    cases hact
    have hsame : WritesBy 0 s.alerts s.alerts := WritesBy.refl _ _
    exact alertHist_keep h (kept_of_writesBy hsame) (newlyActive_of_writesBy hsame) (by simp) rfl rfl
      (fun _ => rfl) (fun _ => rfl) fun _ hd => hd
  | next c now =>
    obtain ⟨call, hc, hnext⟩ := Option.bind_eq_some_iff.mp hact
    exact alertHist_next hinv h hc hnext

end hist

/-! ## The rows of an incident -/

/-- An incident has one committed active row at most. -/
def Single (alerts : Store LiveAlert) : Prop :=
  ∀ i j r r' incident, (alerts.cells i).committed = some r → (alerts.cells j).committed = some r' →
    r.active = true → r'.active = true → r.incident = some incident → r'.incident = some incident →
      i = j

/-- The call has reported row `i` as created, or is about to. -/
def AlertState.Creates (s : AlertState) (c i : Nat) : Prop := (c, i) ∈ s.created ∨ i ∈ s.reporting c

/-- The call has returned row `i` as resolved, or is about to. -/
def AlertState.Returns (s : AlertState) (c i : Nat) : Prop := (c, i) ∈ s.returned ∨ i ∈ s.returning c

section runs
variable {hashtext : Incident → Int} {s : AlertState} {alerts : Store LiveAlert} {devices : List Nat}
  {as : List AlertAction}

theorem alertInv_init (hidle : ∀ i, (alerts.cells i).working = none) (hsingle : Single alerts) :
    AlertInv hashtext (.init alerts devices) := by
  refine ⟨?_, ?_, ?_, hsingle⟩
  · intro l c d hc
    contradiction
  · intro c call hc
    contradiction
  · intro k t r hk
    rw [show ((AlertState.init alerts devices).alerts.cells k).working = none from hidle k] at hk
    contradiction

theorem alertHist_init : AlertHist (.init alerts devices) := by
  refine ⟨?_, ?_, .nil, .nil, rfl, .slnil, .empty fun _ => rfl, .empty fun _ => rfl⟩
  · intro k hk
    contradiction
  · intro k hk
    contradiction

theorem alertInv_run (hidle : ∀ i, (alerts.cells i).working = none) (hsingle : Single alerts)
    (hrun : run (alertStep hashtext) (.init alerts devices) as = some s) :
    AlertInv hashtext s ∧ AlertHist s := by
  refine run_preserves (P := fun s => AlertInv hashtext s ∧ AlertHist s) ?_
    ⟨alertInv_init hidle hsingle, alertHist_init⟩ hrun
  rintro s a s' ⟨hinv, h⟩ hs
  exact ⟨alertInv_step hinv hs, alertHist_step hinv h hs⟩

theorem eq_of_mem_map_snd {l : List (Nat × Nat)} {c d i : Nat} (h : (l.map Prod.snd).Nodup)
    (hc : (c, i) ∈ l) (hd : (d, i) ∈ l) : c = d :=
  (Prod.mk.inj (List.inj_on_of_nodup_map h hc hd rfl)).1

/-- Whatever calls run beside each other, an incident has one active row at most; each row opened is
reported as created by one call, each row is resolved once at most, and what a `resolveIncidents`
resolves is returned by it and by no other. -/
theorem incidents_open_once (hidle : ∀ i, (alerts.cells i).working = none) (hsingle : Single alerts)
    (hrun : run (alertStep hashtext) (.init alerts devices) as = some s) :
    Single s.alerts ∧
      (s.opened.Nodup ∧ s.created.Nodup ∧ (∀ i ∈ s.opened, ∃! c, s.Creates c i) ∧
        ∀ c i, s.Creates c i → i ∈ s.opened) ∧
      s.resolved.Nodup ∧
      s.returned.Nodup ∧ (∀ c i, (c, i) ∈ s.resolvedBy → ∀ d, s.Returns d i ↔ d = c) ∧
        ∀ c i, s.Returns c i → i ∈ s.resolved := by
  obtain ⟨hinv, h⟩ := alertInv_run hidle hsingle hrun
  refine ⟨hinv.single, ⟨h.openedNodup, h.reports.nodup, ?_, ?_⟩, h.resolvedNodup, h.returns.nodup,
    ?_, ?_⟩
  · intro i hi
    have hnodup : (s.openedBy.map Prod.snd).Nodup := h.openedBy ▸ h.openedNodup
    rw [← h.openedBy] at hi
    obtain ⟨⟨c, i⟩, hc, rfl⟩ := List.mem_map.mp hi
    refine ⟨c, (h.reports.mem_iff c i).mp hc, ?_⟩
    intro d hd
    exact eq_of_mem_map_snd hnodup ((h.reports.mem_iff d i).mpr hd) hc
  · intro c i hi
    rw [← h.openedBy]
    exact List.mem_map_of_mem ((h.reports.mem_iff c i).mpr hi)
  · intro c i hc d
    have hnodup := h.resolvedBy.nodup h.resolvedNodup
    constructor
    · intro hd
      exact eq_of_mem_map_snd hnodup ((h.returns.mem_iff d i).mpr hd) hc
    · rintro rfl
      exact (h.returns.mem_iff d i).mp hc
  · intro c i hi
    exact h.resolvedBy.subset (List.mem_map_of_mem ((h.returns.mem_iff c i).mpr hi))

/-- Two raises of an incident and a resolve of it. -/
def raisedTwice : List AlertAction :=
  let input : RaiseIncidentInput := ⟨1, .banBurst, "burst:7", some 7, "Ban burst", "", .warning, none⟩
  let steps := fun c n => List.replicate n (AlertAction.next c 5)
  [.raise input 3, .raise input 4, .next 0 5, .next 0 5, .next 0 5, .next 0 5] ++ steps 1 4 ++
    [.resolve ⟨some 1, some "burst:7", none, none⟩] ++ steps 2 4 ++ steps 0 2

theorem raisedTwice_opens_once : ∃ s,
    run (alertStep fun _ => 1) (.init ⟨fun _ => Cell.empty, 0, fun _ _ => rfl⟩ []) raisedTwice =
        some s ∧
      s.opened = [0] ∧ s.resolvedBy = [(2, 0)] ∧ (∃! c, s.Creates c 0) ∧ ∀ d, s.Returns d 0 ↔ d = 2 := by
  have hruns : (run (alertStep fun _ => 1) (.init ⟨fun _ => Cell.empty, 0, fun _ _ => rfl⟩ [])
      raisedTwice).any (fun s => s.opened == [0] && s.resolvedBy == [(2, 0)]) = true := by
    decide +kernel
  obtain ⟨s, hs, hhist⟩ := (Option.any_eq_true _ _).mp hruns
  rw [Bool.and_eq_true_iff, beq_iff_eq, beq_iff_eq] at hhist
  obtain ⟨-, ⟨-, -, hcreated, -⟩, -, -, hreturned, -⟩ := incidents_open_once (fun _ => rfl)
    (by intro i j r r' incident hi; contradiction) hs
  exact ⟨s, hs, hhist.1, hhist.2, hcreated 0 (by simp [hhist.1]), hreturned 2 0 (by simp [hhist.2])⟩

end runs

end Obliguard.Server

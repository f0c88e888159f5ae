import Obliguard.Server.LiveAlerts

/-!
# What the calls of live incidents hold

The lock of an incident keeps other raises out from the read of its active rows to the commit; what a
resolve, a trim or a clean-up does to these rows meanwhile can only take some of them away. So a raise
knows every active row of its incident (`AlertCall.known`), and commits with one at most. Of the rows
that a call holds without having committed them (`AlertCall.Holds`), each replaces an active one, but
the row that a raise inserts. `alertInv_step` is the invariant, one statement after the other.
-/

namespace Obliguard.Server

open ReadCommitted Runs

/-! ## What calls know and hold -/

/-- The incident that a raise has locked. -/
def AlertCall.raised : AlertCall → Option Incident
  | .raiseReading input _ | .raiseClosing input _ _ _ | .raiseBumping input _ _
  | .raiseInserting input _ | .raiseCommitting input _ _ => some input.incident
  | _ => none

/-- The rows of it that may be active for the raise. -/
def AlertCall.known : AlertCall → Option (List Nat)
  | .raiseClosing _ _ keep stale => some (keep.toList ++ stale)
  | .raiseBumping _ _ keep => some [keep]
  | .raiseInserting _ _ => some []
  | .raiseCommitting _ id _ => some [id]
  | _ => none

/-- A version of an active row. -/
def Replaces (old : Option LiveAlert) (r : LiveAlert) : Prop :=
  ∃ r₀, old = some r₀ ∧ r₀.active = true ∧ r₀.incident = r.incident

/-- The rows that it has read, and not written. -/
def AlertCall.read : AlertCall → List Nat
  | .raiseClosing _ _ keep stale => keep.toList ++ stale
  | .raiseBumping _ _ keep => [keep]
  | _ => []

/-- The version of row `k` that a call may hold, not committed yet, beside the committed one. -/
def AlertCall.Holds (call : AlertCall) (k : Nat) (old : Option LiveAlert) (r : LiveAlert) : Prop :=
  match call with
  | .raiseBumping input _ _ | .raiseInserting input _ =>
    r.incident = some input.incident ∧ r.active = false ∧ Replaces old r
  | .raiseCommitting input id created =>
    r.incident = some input.incident ∧ (r.active = false ∧ Replaces old r ∨
      r.active = true ∧ k = id ∧ if created then old = none else Replaces old r)
  | .resolveCommitting _ _ _ got => k ∈ got ∧ r.active = false ∧ Replaces old r
  | _ => False

/-- The row has been committed, if it is not deleted. -/
def Settled (alerts : Store LiveAlert) (k : Nat) : Prop :=
  k < alerts.seq ∧ ((alerts.cells k).working ≠ none → (alerts.cells k).committed ≠ none)

/-- The rows that a call must hold. -/
def AlertCall.Wrote (call : AlertCall) (alerts : Store LiveAlert) (c : Nat) : Prop :=
  match call with
  | .raiseCommitting _ id _ => ∃ r, (alerts.cells id).working = some (c, r) ∧ r.active = true
  | .resolveCommitting _ _ _ got =>
    got.Nodup ∧ ∀ k ∈ got, ∃ r, (alerts.cells k).working = some (c, r)
  | _ => True

/-- A call may hold the rows it holds, and knows what it should. -/
structure CallInv (hashtext : Incident → Int) (s : AlertState) (c : Nat) (call : AlertCall) :
    Prop where
  numbered : c < s.started
  locked : ∀ incident, call.raised = some incident → (hashtext incident, c) ∈ s.locks
  known : ∀ incident ids, call.raised = some incident → call.known = some ids →
    ∀ i r, (s.alerts.cells i).view (some c) = some r → r.active = true →
      r.incident = some incident → i ∈ ids
  read : ∀ i ∈ call.read, Settled s.alerts i ∧
    ∀ r, (s.alerts.cells i).view (some c) = some r → call.raised = r.incident
  wrote : call.Wrote s.alerts c

structure AlertInv (hashtext : Incident → Int) (s : AlertState) : Prop where
  locks : ∀ l c d, (l, c) ∈ s.locks → (l, d) ∈ s.locks → c = d
  calls : ∀ c call, s.calls.get c = some call → CallInv hashtext s c call
  cells : ∀ k t r, (s.alerts.cells k).working = some (t, r) → ∃ call,
    s.calls.get t = some call ∧ call.Holds k (s.alerts.cells k).committed r
  single : ∀ i j r r' incident, (s.alerts.cells i).committed = some r →
    (s.alerts.cells j).committed = some r' → r.active = true → r'.active = true →
      r.incident = some incident → r'.incident = some incident → i = j

/-! ## What a statement does to the rows -/

/-- A transaction writes rows that no other has locked; nothing is committed. -/
structure WritesBy (c : Nat) (before after : Store LiveAlert) : Prop where
  seq : before.seq ≤ after.seq
  cells : ∀ k, after.cells k = before.cells k ∨
    (before.cells k).lockedByOther (some c) = false ∧
      (after.cells k).committed = (before.cells k).committed ∧
      (∃ r, (after.cells k).working = some (c, r)) ∧
      (k < before.seq → (before.cells k).view (some c) ≠ none)

/-- Rows that nobody has locked are resolved or deleted. -/
structure Fades (before after : Store LiveAlert) : Prop where
  seq : after.seq = before.seq
  cells : ∀ k, after.cells k = before.cells k ∨
    (before.cells k).working = none ∧ (after.cells k).working = none ∧
      ∀ r, (after.cells k).committed = some r → r.active = false ∧
        ∃ r₀, (before.cells k).committed = some r₀ ∧ r₀.incident = r.incident

section rows
variable {before after : Store LiveAlert} {c d k : Nat} {r : LiveAlert}

theorem WritesBy.refl (c : Nat) (alerts : Store LiveAlert) : WritesBy c alerts alerts :=
  ⟨Nat.le_refl _, fun _ => .inl rfl⟩

theorem WritesBy.committed (h : WritesBy c before after) (k : Nat) :
    (after.cells k).committed = (before.cells k).committed := by
  rcases h.cells k with hk | ⟨-, hk, -⟩
  · rw [hk]
  · exact hk

theorem WritesBy.of_working (h : WritesBy c before after) (hd : d ≠ c)
    (hk : (after.cells k).working = some (d, r)) : after.cells k = before.cells k := by
  rcases h.cells k with heq | ⟨-, -, ⟨r', hr'⟩, -⟩
  · exact heq
  · rw [hk] at hr'
    exact absurd (Prod.mk.inj (Option.some.inj hr')).1 hd

theorem WritesBy.of_working_before (h : WritesBy c before after) (hd : d ≠ c)
    (hk : (before.cells k).working = some (d, r)) : after.cells k = before.cells k := by
  rcases h.cells k with heq | ⟨hfree, -⟩
  · exact heq
  · have := Cell.owned_of_not_lockedByOther hfree hk
    exact absurd (Option.some.inj this).symm hd

theorem WritesBy.view (h : WritesBy c before after) (hd : d ≠ c) :
    (after.cells k).view (some d) = (before.cells k).view (some d) := by
  rcases h.cells k with heq | ⟨hfree, hcommitted, ⟨r, hr⟩, -⟩
  · rw [heq]
  · rw [Cell.view_of_not_owned, Cell.view_of_not_owned, hcommitted]
    · rw [← Bool.not_eq_true, Cell.owned_iff]
      rintro ⟨r', hr'⟩
      exact hd (Option.some.inj (Cell.owned_of_not_lockedByOther hfree hr')).symm
    · rw [← Bool.not_eq_true, Cell.owned_iff]
      rintro ⟨r', hr'⟩
      rw [hr] at hr'
      exact hd (Prod.mk.inj (Option.some.inj hr')).1.symm

theorem writesBy_update {p : Nat → LiveAlert → Bool} {f : Nat → LiveAlert → LiveAlert}
    {ids : List Nat} (h : before.update noKey (some c) p f = .done (ids, after)) :
    WritesBy c before after := by
  have hw := update_writes h
  refine ⟨(seq_update h).ge, ?_⟩
  intro k
  by_cases hk : k ∈ ids
  · obtain ⟨r, hr⟩ := hw.wrote k hk
    obtain ⟨r₀, hr₀, -⟩ := (mem_update h).mp hk
    exact .inr ⟨hw.free k hk, by rw [hr]; rfl, ⟨r, by rw [hr]; rfl⟩, fun _ => by simp [hr₀]⟩
  · exact .inl (hw.same k hk)

theorem writesBy_insert (h : before.insert noKey (some c) r = .done after) :
    WritesBy c before after := by
  have hw := insert_writes h
  obtain rfl := insert_eq h
  refine ⟨Nat.le_succ _, ?_⟩
  intro k
  by_cases hk : k ∈ [before.seq]
  · obtain ⟨r', hr'⟩ := hw.wrote k hk
    refine .inr ⟨hw.free k hk, by rw [hr']; rfl, ⟨r', by rw [hr']; rfl⟩, fun hlt => ?_⟩
    rw [List.mem_singleton.mp hk] at hlt
    exact absurd hlt (Nat.lt_irrefl _)
  · exact .inl (hw.same k hk)

theorem working_none_of_not_locked {cell : Cell LiveAlert} (h : cell.lockedByOther none = false) :
    cell.working = none := by
  cases hw : cell.working with
  | none => rfl
  | some w => exact absurd (Cell.owned_of_not_lockedByOther h hw) (by simp)

theorem fades_update {p : Nat → LiveAlert → Bool} {f : Nat → LiveAlert → LiveAlert}
    {ids : List Nat} (hf : ∀ i r, (f i r).active = false ∧ r.incident = (f i r).incident)
    (h : before.update noKey none p f = .done (ids, after)) : Fades before after := by
  have hw := update_writes h
  refine ⟨seq_update h, ?_⟩
  intro k
  by_cases hk : k ∈ ids
  · obtain ⟨r, hr, -⟩ := (mem_update h).mp hk
    have hnone := working_none_of_not_locked (hw.free k hk)
    rw [cells_update h hk hr]
    refine .inr ⟨hnone, hnone, ?_⟩
    intro r' hr'
    rw [← Option.some.inj hr']
    rw [Cell.view_none] at hr
    exact ⟨(hf k r).1, r, hr, (hf k r).2⟩
  · exact .inl (hw.same k hk)

theorem fades_delete {s s' : AlertState} {p : Nat → LiveAlert → Bool} (h : s.delete p = some s') :
    Fades s.alerts s'.alerts ∧ s' = { s with alerts := s'.alerts } := by
  unfold AlertState.delete at h
  split at h
  · contradiction
  · rename_i hfree
    obtain rfl := Option.some.inj h
    refine ⟨⟨rfl, ?_⟩, rfl⟩
    intro k
    by_cases hk : ((s.alerts.cells k).committed.any (p k)) = true
    · have hcell : (s.alerts.delete p).cells k = Cell.empty := if_pos hk
      refine .inr ⟨working_none_of_not_locked ?_, by rw [hcell]; rfl, ?_⟩
      · rw [List.any_eq_true] at hfree
        by_contra hlocked
        refine hfree ⟨k, mem_select.mpr ?_, by simpa using hlocked⟩
        rw [Cell.view_none]
        obtain ⟨r, hr, hp⟩ := (Option.any_eq_true _ _).mp hk
        exact ⟨r, hr, hp⟩
      · intro r hr
        rw [hcell] at hr
        contradiction
    · exact .inl (if_neg hk)

theorem committed_commit_eq_view (cell : Cell LiveAlert) (c : Nat) :
    (cell.commit c).committed = cell.view (some c) := by
  rw [Cell.committed_commit]
  split
  · rfl
  · rename_i howned
    exact (Cell.view_of_not_owned (Bool.eq_false_iff.mpr howned)).symm

theorem commit_of_working {cell : Cell LiveAlert} {r : LiveAlert} (hd : d ≠ c)
    (hw : cell.working = some (d, r)) : cell.commit c = cell := by
  rw [Cell.commit, hw]
  exact if_neg hd

theorem working_commit_eq_some {cell : Cell LiveAlert} {r : LiveAlert}
    (hw : (cell.commit c).working = some (d, r)) : d ≠ c ∧ cell.working = some (d, r) := by
  rw [Cell.working_commit] at hw
  split at hw
  · contradiction
  · rename_i howned
    refine ⟨?_, hw⟩
    rintro rfl
    exact howned (Cell.owned_iff.mpr ⟨r, hw⟩)

/-- What another call sees after a commit that it did not see is what was committed. -/
theorem view_commit_other {cell : Cell LiveAlert} {r : LiveAlert}
    (hr : (cell.commit c).view (some d) = some r) :
    cell.view (some d) = some r ∨ cell.working = some (c, r) := by
  cases hw : cell.working with
  | none =>
    rw [Cell.commit, hw] at hr
    exact .inl hr
  | some w =>
    obtain ⟨u, w⟩ := w
    rw [Cell.commit, hw] at hr
    dsimp only at hr
    split at hr
    · rename_i huc
      subst huc
      have hsame : w = r := by
        rw [Cell.view] at hr
        exact Option.some.inj hr
      exact .inr (by rw [hsame])
    · exact .inl hr

theorem settled_of_writesBy (h : WritesBy c before after) (hk : Settled before k) :
    Settled after k := by
  refine ⟨Nat.lt_of_lt_of_le hk.1 h.seq, ?_⟩
  intro hw
  rcases h.cells k with heq | ⟨-, hcommitted, -, hview⟩
  · rw [heq] at hw ⊢
    exact hk.2 hw
  · rw [hcommitted]
    intro hnone
    refine hview hk.1 ?_
    cases hworking : (before.cells k).working with
    | none => rw [Cell.view, hworking, hnone]
    | some w => exact absurd hnone (hk.2 (by simp [hworking]))

theorem settled_of_fades (h : Fades before after) (hk : Settled before k) : Settled after k := by
  refine ⟨h.seq ▸ hk.1, ?_⟩
  rcases h.cells k with heq | ⟨-, hnone, -⟩
  · rw [heq]
    exact hk.2
  · simp [hnone]

theorem settled_commit (c : Nat) (hk : Settled before k) : Settled (before.commit c) k := by
  refine ⟨hk.1, ?_⟩
  intro hw
  show ((before.cells k).commit c).committed ≠ none
  cases hworking : ((before.cells k).commit c).working with
  | none => exact absurd hworking hw
  | some w =>
    obtain ⟨hd, hw'⟩ := working_commit_eq_some (d := w.1) (r := w.2) hworking
    rw [commit_of_working hd hw']
    exact hk.2 (by simp [hw'])

end rows

/-! ## The invariant, step by step -/

section inv
variable {hashtext : Incident → Int} {s s' : AlertState} {c d k : Nat} {call call' : AlertCall}
  {alerts : Store LiveAlert}

theorem not_working (h : AlertInv hashtext s) (hc : s.calls.get c = some call)
    (hno : ∀ k old r, ¬ call.Holds k old r) (k : Nat) (r : LiveAlert) :
    (s.alerts.cells k).working ≠ some (c, r) := by
  intro hk
  obtain ⟨call', hc', hholds⟩ := h.cells k c r hk
  obtain rfl := Option.some.inj (hc ▸ hc')
  exact hno _ _ _ hholds

theorem not_working_fresh (h : AlertInv hashtext s) (k : Nat) (r : LiveAlert) :
    (s.alerts.cells k).working ≠ some (s.started, r) := by
  intro hk
  obtain ⟨call', hc', -⟩ := h.cells k _ r hk
  exact absurd (h.calls _ _ hc').numbered (Nat.lt_irrefl _)

theorem AlertCall.Wrote.mono (h : call.Wrote s.alerts c)
    (hkept : ∀ k r, (s.alerts.cells k).working = some (c, r) →
      (alerts.cells k).working = some (c, r)) : call.Wrote alerts c := by
  cases call with
  | raiseCommitting input id created =>
    obtain ⟨r, hr, hactive⟩ := h
    exact ⟨r, hkept id r hr, hactive⟩
  | resolveCommitting sel rest ids got =>
    refine ⟨h.1, ?_⟩
    intro k hk
    obtain ⟨r, hr⟩ := h.2 k hk
    exact ⟨r, hkept k r hr⟩
  | _ => trivial

theorem callInv_of_writesBy (h : CallInv hashtext s d call) (hw : WritesBy c s.alerts alerts)
    (hd : d ≠ c) : CallInv hashtext { s with alerts := alerts } d call := by
  refine ⟨h.numbered, h.locked, ?_, ?_, h.wrote.mono ?_⟩
  · intro incident ids hraised hknown i r hr hactive hincident
    rw [hw.view hd] at hr
    exact h.known incident ids hraised hknown i r hr hactive hincident
  · intro i hi
    obtain ⟨hsettled, hincident⟩ := h.read i hi
    refine ⟨settled_of_writesBy hw hsettled, ?_⟩
    intro r hr
    rw [hw.view hd] at hr
    exact hincident r hr
  · intro k r hr
    rw [hw.of_working_before hd hr]
    exact hr

theorem alertInv_write (h : AlertInv hashtext s) (hw : WritesBy c s.alerts alerts)
    (hcall : CallInv hashtext { s with alerts := alerts } c call')
    (hholds : ∀ k r, (alerts.cells k).working = some (c, r) →
      call'.Holds k (alerts.cells k).committed r) :
    AlertInv hashtext ({ s with alerts := alerts }.setCall c call') := by
  refine ⟨h.locks, ?_, ?_, ?_⟩
  · intro d call hd
    rcases Registry.get_put_eq_some hd with ⟨rfl, rfl⟩ | ⟨hdc, hd⟩
    · exact { hcall with }
    · exact { callInv_of_writesBy (h.calls d call hd) hw hdc with }
  · intro k t r hk
    by_cases htc : t = c
    · subst htc
      exact ⟨call', Registry.get_put_self, hholds k r hk⟩
    · have hcell := hw.of_working htc hk
      have hk' : (s.alerts.cells k).working = some (t, r) := by
        rw [← hcell]
        exact hk
      obtain ⟨call, hcall', hr⟩ := h.cells k t r hk'
      refine ⟨call, (Registry.get_put_of_ne htc).trans hcall', ?_⟩
      show call.Holds k (alerts.cells k).committed r
      rw [hcell]
      exact hr
  · intro i j r r' incident hi hj
    refine h.single i j r r' incident ?_ ?_
    · rw [← hw.committed]
      exact hi
    · rw [← hw.committed]
      exact hj

theorem alertInv_setCall (h : AlertInv hashtext s) (hcall : CallInv hashtext s c call')
    (hholds : ∀ k r, (s.alerts.cells k).working = some (c, r) →
      call'.Holds k (s.alerts.cells k).committed r) : AlertInv hashtext (s.setCall c call') :=
  alertInv_write h (WritesBy.refl c s.alerts) hcall hholds

/-- The call is under no lock and holds no row. -/
structure AlertCall.Idle (call : AlertCall) : Prop where
  raised : call.raised = none
  read : call.read = []
  wrote : ∀ alerts c, call.Wrote alerts c

theorem callInv_idle (hc : c < s.started) (hidle : call.Idle) : CallInv hashtext s c call := by
  refine ⟨hc, ?_, ?_, ?_, hidle.wrote _ _⟩
  · intro incident hraised
    rw [hidle.raised] at hraised
    contradiction
  · intro incident ids hraised
    rw [hidle.raised] at hraised
    contradiction
  · intro i hi
    rw [hidle.read] at hi
    contradiction

theorem alertInv_start (h : AlertInv hashtext s) (hidle : call.Idle) :
    AlertInv hashtext (s.start call) := by
  have hmore : AlertInv hashtext { s with started := s.started + 1 } := by
    refine { h with calls := ?_ }
    intro d call hd
    exact { h.calls d call hd with numbered := Nat.lt_succ_of_lt (h.calls d call hd).numbered }
  refine alertInv_setCall hmore (callInv_idle (Nat.lt_succ_self _) hidle) ?_
  intro k r hk
  exact absurd hk (not_working_fresh h k r)

theorem alertInv_endCall (h : AlertInv hashtext s)
    (hno : ∀ k r, (s.alerts.cells k).working ≠ some (c, r)) : AlertInv hashtext (s.endCall c) := by
  refine ⟨h.locks, ?_, ?_, h.single⟩
  · intro d call hd
    exact { h.calls d call (Registry.get_erase_eq_some hd).2 with }
  · intro k t r hk
    obtain ⟨call, hcall, hr⟩ := h.cells k t r hk
    refine ⟨call, (Registry.get_erase_of_ne ?_).trans hcall, hr⟩
    rintro rfl
    exact hno k r hk

theorem alertInv_lock {l : Int} (h : AlertInv hashtext s) (hs : s.lock c l = some s') :
    AlertInv hashtext s' ∧ s' = { s with locks := (l, c) :: s.locks } := by
  unfold AlertState.lock at hs
  split at hs
  · rename_i hfree
    obtain rfl := Option.some.inj hs
    have hmine : ∀ d, (l, d) ∈ s.locks → d = c := by
      intro d hd
      simpa using List.all_eq_true.mp hfree _ hd
    refine ⟨⟨?_, ?_, h.cells, h.single⟩, rfl⟩
    · intro m d e hd he
      rcases List.mem_cons.mp hd with hnew | hold
      · obtain ⟨rfl, rfl⟩ := Prod.mk.inj hnew
        rcases List.mem_cons.mp he with hnew' | hold'
        · exact (Prod.mk.inj hnew').2.symm
        · exact (hmine e hold').symm
      · rcases List.mem_cons.mp he with hnew' | hold'
        · obtain ⟨rfl, rfl⟩ := Prod.mk.inj hnew'
          exact hmine d hold
        · exact h.locks m d e hold hold'
    · intro d call hd
      have hcall := h.calls d call hd
      exact { hcall with locked := fun i hi => List.mem_cons_of_mem _ (hcall.locked i hi) }
  · contradiction

theorem alertInv_fades (h : AlertInv hashtext s) (hf : Fades s.alerts alerts) :
    AlertInv hashtext { s with alerts := alerts } := by
  have hactive : ∀ k r, (alerts.cells k).committed = some r → r.active = true →
      alerts.cells k = s.alerts.cells k := by
    intro k r hk hr
    rcases hf.cells k with heq | ⟨-, -, hno⟩
    · exact heq
    · rw [(hno r hk).1] at hr
      contradiction
  have hworking : ∀ k w, (alerts.cells k).working = some w ∨ (s.alerts.cells k).working = some w →
      alerts.cells k = s.alerts.cells k := by
    intro k w hk
    rcases hf.cells k with heq | ⟨hbefore, hafter, -⟩
    · exact heq
    · simp [hbefore, hafter] at hk
  refine ⟨h.locks, ?_, ?_, ?_⟩
  · intro d call hd
    have hcall := h.calls d call hd
    refine ⟨hcall.numbered, hcall.locked, ?_, ?_, hcall.wrote.mono ?_⟩
    · intro incident ids hraised hknown i r hr hi hincident
      have hcell : alerts.cells i = s.alerts.cells i := by
        cases hw : (alerts.cells i).working with
        | some w => exact hworking i w (.inl hw)
        | none =>
          have hcommitted : (alerts.cells i).committed = some r := by
            rw [← hr]
            show _ = (alerts.cells i).view (some d)
            rw [Cell.view, hw]
          exact hactive i r hcommitted hi
      refine hcall.known incident ids hraised hknown i r ?_ hi hincident
      rw [← hcell]
      exact hr
    · intro i hi
      obtain ⟨hsettled, hincident⟩ := hcall.read i hi
      refine ⟨settled_of_fades hf hsettled, ?_⟩
      intro r hr
      rcases hf.cells i with heq | ⟨hbefore, hafter, hno⟩
      · exact hincident r (heq ▸ hr)
      · have hcommitted : (alerts.cells i).committed = some r := by
          rw [← hr]
          show _ = (alerts.cells i).view (some d)
          rw [Cell.view, hafter]
        obtain ⟨-, r₀, hr₀, hsame⟩ := hno r hcommitted
        rw [← hsame]
        refine hincident r₀ ?_
        rw [Cell.view, hbefore]
        exact hr₀
    · intro k r hr
      show (alerts.cells k).working = _
      rw [hworking k _ (.inr hr)]
      exact hr
  · intro k t r hk
    have hcell := hworking k _ (.inl hk)
    dsimp only at hk ⊢
    rw [hcell] at hk ⊢
    exact h.cells k t r hk
  · intro i j r r' incident hi hj hr hr'
    refine h.single i j r r' incident ?_ ?_ hr hr'
    · rw [← hactive i r hi hr]
      exact hi
    · rw [← hactive j r' hj hr']
      exact hj

theorem AlertCall.Holds.raised {old : Option LiveAlert} {r : LiveAlert} (h : call.Holds k old r)
    (hr : r.active = true) : ∃ incident, call.raised = some incident ∧ r.incident = some incident := by
  unfold AlertCall.Holds at h
  split at h
  · simp [h.2.1] at hr
  · simp [h.2.1] at hr
  · exact ⟨_, rfl, h.1⟩
  · simp [h.2.1] at hr
  · contradiction

theorem AlertCall.Holds.replaces {old : Option LiveAlert} {r : LiveAlert} (h : call.Holds k old r)
    (hold : old ≠ none) : Replaces old r := by
  unfold AlertCall.Holds at h
  split at h
  · exact h.2.2
  · exact h.2.2
  · rcases h.2 with ⟨-, hr⟩ | ⟨-, -, hr⟩
    · exact hr
    · split at hr
      · exact absurd hr hold
      · exact hr
  · exact h.2.2
  · contradiction

/-- A raise commits one active row of its incident at most, a resolve none. -/
theorem alertInv_commit {calls : Registry AlertCall} (h : AlertInv hashtext s)
    (hc : s.calls.get c = some call)
    (hone : ∀ incident, call.raised = some incident → ∃ id, call.known = some [id])
    (hother : ∀ d, d ≠ c → calls.get d = s.calls.get d)
    (hnew : ∀ call', calls.get c = some call' → call'.Idle) :
    AlertInv hashtext { s.commit c with calls := calls } := by
  have hheld : ∀ k r, (s.alerts.cells k).working = some (c, r) → r.active = true →
      ∃ incident, call.raised = some incident ∧ r.incident = some incident := by
    intro k r hk hr
    obtain ⟨call', hc', hholds⟩ := h.cells k c r hk
    obtain rfl := Option.some.inj (hc ▸ hc')
    exact hholds.raised hr
  refine ⟨?_, ?_, ?_, ?_⟩
  · intro l d e hd he
    exact h.locks l d e (List.mem_filter.mp hd).1 (List.mem_filter.mp he).1
  · intro d call' hd
    by_cases hdc : d = c
    · subst hdc
      exact callInv_idle (h.calls d call hc).numbered (hnew call' hd)
    · rw [hother d hdc] at hd
      have hcall := h.calls d call' hd
      have hlocked : ∀ incident, call'.raised = some incident →
          (hashtext incident, d) ∈ (s.commit c).locks := by
        intro incident hraised
        exact List.mem_filter.mpr ⟨hcall.locked incident hraised, by simpa using hdc⟩
      refine ⟨hcall.numbered, hlocked, ?_, ?_, hcall.wrote.mono ?_⟩
      · intro incident ids hraised hknown i r hr hactive hincident
        rcases view_commit_other hr with hview | hworking
        · exact hcall.known incident ids hraised hknown i r hview hactive hincident
        · obtain ⟨incident', hraised', hincident'⟩ := hheld i r hworking hactive
          obtain rfl := Option.some.inj (hincident.symm.trans hincident')
          have hlock := (h.calls c call hc).locked incident hraised'
          exact absurd (h.locks _ _ _ (hcall.locked incident hraised) hlock) hdc
      · intro i hi
        obtain ⟨hsettled, hincident⟩ := hcall.read i hi
        refine ⟨settled_commit c hsettled, ?_⟩
        intro r hr
        rcases view_commit_other hr with hview | hworking
        · exact hincident r hview
        · obtain ⟨call'', -, hholds⟩ := h.cells i c r hworking
          obtain ⟨r₀, hr₀, -, hsame⟩ := hholds.replaces (hsettled.2 (by simp [hworking]))
          rw [← hsame]
          refine hincident r₀ ?_
          rw [Cell.view_of_not_owned]
          · exact hr₀
          · rw [Cell.owned, hworking]
            simpa using hdc
      · intro k r hr
        show ((s.alerts.cells k).commit c).working = _
        rw [commit_of_working hdc hr]
        exact hr
  · intro k t r hk
    obtain ⟨htc, hk⟩ := working_commit_eq_some hk
    obtain ⟨call', hcall', hr⟩ := h.cells k t r hk
    refine ⟨call', (hother t htc).trans hcall', ?_⟩
    show call'.Holds k ((s.alerts.cells k).commit c).committed r
    rw [commit_of_working htc hk]
    exact hr
  · intro i j r r' incident hi hj hr hr' hincident hincident'
    replace hi : (s.alerts.cells i).view (some c) = some r := by
      rw [← committed_commit_eq_view]
      exact hi
    replace hj : (s.alerts.cells j).view (some c) = some r' := by
      rw [← committed_commit_eq_view]
      exact hj
    by_cases hraised : call.raised = some incident
    · obtain ⟨id, hid⟩ := hone incident hraised
      have hknown := (h.calls c call hc).known incident _ hraised hid
      have hi := List.mem_singleton.mp (hknown i r hi hr hincident)
      have hj := List.mem_singleton.mp (hknown j r' hj hr' hincident')
      exact hi.trans hj.symm
    · have hcommitted : ∀ k w, (s.alerts.cells k).view (some c) = some w → w.active = true →
          w.incident = some incident → (s.alerts.cells k).committed = some w := by
        intro k w hk hw hinc
        by_cases howned : (s.alerts.cells k).owned (some c) = true
        · obtain ⟨w', hw'⟩ := Cell.owned_iff.mp howned
          rw [Cell.view_of_working hw'] at hk
          obtain rfl := Option.some.inj hk
          obtain ⟨incident', hraised', hincident'⟩ := hheld k _ hw' hw
          obtain rfl := Option.some.inj (hinc.symm.trans hincident')
          contradiction
        · rw [← Cell.view_of_not_owned (Bool.eq_false_iff.mpr howned)]
          exact hk
      exact h.single i j r r' incident (hcommitted i r hi hr hincident)
        (hcommitted j r' hj hr' hincident') hr hr' hincident hincident'

/-! ### The statements of a raise and of a resolve -/

theorem committed_of_view {r : LiveAlert}
    (hclosed : ∀ r, (s.alerts.cells k).working = some (c, r) → r.active = false)
    (hr : (s.alerts.cells k).view (some c) = some r) (hactive : r.active = true) :
    (s.alerts.cells k).committed = some r := by
  by_cases howned : (s.alerts.cells k).owned (some c) = true
  · obtain ⟨w, hw⟩ := Cell.owned_iff.mp howned
    rw [Cell.view_of_working hw] at hr
    obtain rfl := Option.some.inj hr
    rw [hclosed _ hw] at hactive
    contradiction
  · rw [← Cell.view_of_not_owned (Bool.eq_false_iff.mpr howned)]
    exact hr

section update
variable {p : Nat → LiveAlert → Bool} {f : Nat → LiveAlert → LiveAlert} {ids : List Nat}
  (h : s.alerts.update noKey (some c) p f = .done (ids, alerts))
include h

theorem view_update {r : LiveAlert} (hr : (alerts.cells k).view (some c) = some r) :
    (∃ r₀, (s.alerts.cells k).view (some c) = some r₀ ∧ p k r₀ = true ∧ r = f k r₀) ∨
      k ∉ ids ∧ (s.alerts.cells k).view (some c) = some r := by
  by_cases hk : k ∈ ids
  · obtain ⟨r₀, hr₀, hp⟩ := (mem_update h).mp hk
    rw [cells_update h hk hr₀, Cell.view_write ((update_writes h).free k hk)] at hr
    exact .inl ⟨r₀, hr₀, hp, (Option.some.inj hr).symm⟩
  · rw [(update_writes h).same k hk] at hr
    exact .inr ⟨hk, hr⟩

theorem working_update {r : LiveAlert} (hr : (alerts.cells k).working = some (c, r)) :
    (alerts.cells k).committed = (s.alerts.cells k).committed ∧
      ((∃ r₀, (s.alerts.cells k).view (some c) = some r₀ ∧ k ∈ ids ∧ p k r₀ = true ∧ r = f k r₀) ∨
        (s.alerts.cells k).working = some (c, r)) := by
  refine ⟨(writesBy_update h).committed k, ?_⟩
  by_cases hk : k ∈ ids
  · obtain ⟨r₀, hr₀, hp⟩ := (mem_update h).mp hk
    rw [cells_update h hk hr₀, Cell.working_write_some] at hr
    exact .inl ⟨r₀, hr₀, hk, hp, (Prod.mk.inj (Option.some.inj hr)).2.symm⟩
  · rw [(update_writes h).same k hk] at hr
    exact .inr hr

end update

theorem raised_afterClosing {input : RaiseIncidentInput} {now : Int} {keep : Option Nat} :
    (afterClosing input now keep).raised = some input.incident := by
  cases keep with
  | none => rfl
  | some keep => rfl

theorem known_afterClosing {input : RaiseIncidentInput} {now : Int} {keep : Option Nat} :
    (afterClosing input now keep).known = some keep.toList := by
  cases keep with
  | none => rfl
  | some keep => rfl

theorem holds_afterClosing {input : RaiseIncidentInput} {now : Int} {keep : Option Nat}
    {old : Option LiveAlert} {r : LiveAlert} : (afterClosing input now keep).Holds k old r ↔
      r.incident = some input.incident ∧ r.active = false ∧ Replaces old r := by
  cases keep with
  | none => rfl
  | some keep => rfl

theorem callInv_raise {incident : Incident} {ids : List Nat} (h : CallInv hashtext s c call)
    (hraised : call.raised = some incident) (hraised' : call'.raised = some incident)
    (hknown : call'.known = some ids)
    (hids : ∀ i r, (alerts.cells i).view (some c) = some r → r.active = true →
      r.incident = some incident → i ∈ ids)
    (hread : ∀ i ∈ call'.read, Settled alerts i ∧
      ∀ r, (alerts.cells i).view (some c) = some r → r.incident = some incident)
    (hwrote : call'.Wrote alerts c) : CallInv hashtext { s with alerts := alerts } c call' := by
  refine ⟨h.numbered, ?_, ?_, ?_, hwrote⟩
  · intro incident' hinc
    obtain rfl := Option.some.inj (hraised'.symm.trans hinc)
    exact h.locked _ hraised
  · intro incident' ids' hinc hids' i r hr hactive hincident
    obtain rfl := Option.some.inj (hraised'.symm.trans hinc)
    obtain rfl := Option.some.inj (hknown.symm.trans hids')
    exact hids i r hr hactive hincident
  · intro i hi
    obtain ⟨hsettled, hincident⟩ := hread i hi
    exact ⟨hsettled, fun r hr => hraised'.trans (hincident r hr).symm⟩

theorem wrote_afterClosing {input : RaiseIncidentInput} {now : Int} {keep : Option Nat} :
    (afterClosing input now keep).Wrote alerts c := by
  cases keep with
  | none => trivial
  | some keep => trivial

theorem read_afterClosing {input : RaiseIncidentInput} {now : Int} {keep : Option Nat} :
    (afterClosing input now keep).read = keep.toList := by
  cases keep with
  | none => rfl
  | some keep => rfl

theorem mem_activeRows {incident : Incident} {i : Nat} : i ∈ s.activeRows c incident ↔ ∃ r,
    (s.alerts.cells i).view (some c) = some r ∧ r.active = true ∧ r.incident = some incident := by
  simp [AlertState.activeRows, mem_select]

theorem settled_activeRows {incident : Incident} {i : Nat}
    (hfree : ∀ k r, (s.alerts.cells k).working ≠ some (c, r))
    (hi : i ∈ s.activeRows c incident) : Settled s.alerts i ∧
      ∀ r, (s.alerts.cells i).view (some c) = some r → r.incident = some incident := by
  obtain ⟨r, hr, hactive, hincident⟩ := mem_activeRows.mp hi
  have hcommitted := committed_of_view (fun r hk => absurd hk (hfree i r)) hr hactive
  refine ⟨⟨?_, by simp [hcommitted]⟩, ?_⟩
  · by_contra hge
    rw [s.alerts.fresh i (by omega)] at hcommitted
    contradiction
  · intro r' hr'
    obtain rfl := Option.some.inj (hr.symm.trans hr')
    exact hincident

theorem alertInv_raiseReading {input : RaiseIncidentInput} {now now' : Int}
    (h : AlertInv hashtext s) (hc : s.calls.get c = some (.raiseReading input now'))
    (hs : alertNext hashtext s c now (.raiseReading input now') = some s') :
    AlertInv hashtext s' := by
  have hfree := not_working h hc fun _ _ _ hholds => hholds
  have hkeep : ∀ i, i ∈ (s.keepOf c input.severity (s.activeRows c input.incident)).toList →
      i ∈ s.activeRows c input.incident := by
    intro i hi
    exact List.mem_of_find?_eq_some (Option.mem_toList.mp hi)
  unfold alertNext at hs
  dsimp only at hs
  split at hs
  · rename_i hstale
    obtain rfl := Option.some.inj hs
    refine alertInv_setCall h (callInv_raise (h.calls c _ hc) rfl raised_afterClosing
      known_afterClosing ?_ ?_ wrote_afterClosing) fun k r hk => absurd hk (hfree k r)
    · intro i r hr ha hincident
      have hkept := List.filter_eq_nil_iff.mp hstale i (mem_activeRows.mpr ⟨r, hr, ha, hincident⟩)
      rw [decide_eq_true_eq, not_not] at hkept
      exact Option.mem_toList.mpr hkept.symm
    · intro i hi
      rw [read_afterClosing] at hi
      exact settled_activeRows hfree (hkeep i hi)
  · obtain rfl := Option.some.inj hs
    refine alertInv_setCall h (callInv_raise (h.calls c _ hc) rfl rfl rfl ?_ ?_ trivial)
      fun k r hk => absurd hk (hfree k r)
    · intro i r hr ha hincident
      rw [List.mem_append, List.mem_filter, Option.mem_toList]
      by_cases hkept : some i = s.keepOf c input.severity (s.activeRows c input.incident)
      · exact .inl hkept.symm
      · exact .inr ⟨mem_activeRows.mpr ⟨r, hr, ha, hincident⟩, by simpa using hkept⟩
    · intro i hi
      refine settled_activeRows hfree ?_
      exact (List.mem_append.mp hi).elim (hkeep i) fun hstale => (List.mem_filter.mp hstale).1

theorem alertInv_raiseClosing {input : RaiseIncidentInput} {now now' : Int} {keep : Option Nat}
    {stale : List Nat} (h : AlertInv hashtext s)
    (hc : s.calls.get c = some (.raiseClosing input now' keep stale))
    (hs : alertNext hashtext s c now (.raiseClosing input now' keep stale) = some s') :
    AlertInv hashtext s' := by
  have hfree := not_working h hc fun _ _ _ hholds => hholds
  have hcall := h.calls c _ hc
  unfold alertNext at hs
  dsimp only at hs
  split at hs
  · rename_i ids alerts hupdate
    obtain rfl := Option.some.inj hs
    refine alertInv_write h (writesBy_update hupdate) (callInv_raise hcall rfl
      raised_afterClosing known_afterClosing ?_ ?_ wrote_afterClosing) ?_
    · intro i r hr hactive hincident
      rcases view_update hupdate hr with ⟨r₀, -, -, rfl⟩ | ⟨hids, hr⟩
      · contradiction
      · have hmem := hcall.known _ _ rfl rfl i r hr hactive hincident
        refine (List.mem_append.mp hmem).resolve_right fun hstale => hids ?_
        exact (mem_update hupdate).mpr ⟨r, hr, by simp [hstale, hactive]⟩
    · intro i hi
      rw [read_afterClosing] at hi
      obtain ⟨hsettled, hincident⟩ := hcall.read i (List.mem_append_left _ hi)
      refine ⟨settled_of_writesBy (writesBy_update hupdate) hsettled, ?_⟩
      intro r hr
      rcases view_update hupdate hr with ⟨r₀, hr₀, -, rfl⟩ | ⟨-, hr⟩
      · exact (hincident r₀ hr₀).symm
      · exact (hincident r hr).symm
    · intro k r hr
      obtain ⟨hcommitted, ⟨r₀, hr₀, -, hp, rfl⟩ | hr⟩ := working_update hupdate hr
      · rw [holds_afterClosing, hcommitted]
        rw [Bool.and_eq_true_iff, List.contains_iff_mem] at hp
        have hold := committed_of_view (fun r hk => absurd hk (hfree k r)) hr₀ hp.2
        have hincident := (hcall.read k (List.mem_append_right _ hp.1)).2 r₀ hr₀
        exact ⟨hincident.symm, rfl, r₀, hold, hp.2, rfl⟩
      · exact absurd hr (hfree k r)
  · contradiction

theorem alertInv_raiseBumping {input : RaiseIncidentInput} {now now' : Int} {keep : Nat}
    (h : AlertInv hashtext s) (hc : s.calls.get c = some (.raiseBumping input now' keep))
    (hs : alertNext hashtext s c now (.raiseBumping input now' keep) = some s') :
    AlertInv hashtext s' := by
  have hcall := h.calls c _ hc
  have hheld : ∀ k r, (s.alerts.cells k).working = some (c, r) →
      r.incident = some input.incident ∧ r.active = false ∧
        Replaces (s.alerts.cells k).committed r := by
    intro k r hk
    obtain ⟨call', hc', hholds⟩ := h.cells k c r hk
    obtain rfl := Option.some.inj (hc ▸ hc')
    exact hholds
  unfold alertNext at hs
  dsimp only at hs
  split at hs
  · rename_i alerts hupdate
    obtain rfl := Option.some.inj hs
    refine alertInv_setCall h (callInv_raise hcall rfl rfl rfl ?_ ?_ trivial) hheld
    · intro i r hr hactive hincident
      have hmem := hcall.known _ _ rfl rfl i r hr hactive hincident
      exact (mem_update hupdate).mpr ⟨r, hr, by simpa [hactive] using hmem⟩
    · intro i hi
      contradiction
  · rename_i ids alerts hne hupdate
    obtain rfl := Option.some.inj hs
    refine alertInv_write h (writesBy_update hupdate) (callInv_raise hcall rfl rfl rfl ?_ ?_ ?_) ?_
    · intro i r hr hactive hincident
      rcases view_update hupdate hr with ⟨r₀, hr₀, hp, rfl⟩ | ⟨-, hr⟩
      · rw [Bool.and_eq_true_iff, beq_iff_eq] at hp
        exact List.mem_singleton.mpr hp.1
      · exact hcall.known _ _ rfl rfl i r hr hactive hincident
    · intro i hi
      contradiction
    · obtain ⟨i, hi⟩ := List.exists_mem_of_ne_nil ids hne
      obtain ⟨r, hr, hp⟩ := (mem_update hupdate).mp hi
      rw [Bool.and_eq_true_iff, beq_iff_eq] at hp
      obtain ⟨rfl, hactive⟩ := hp
      exact ⟨r.bump input now', by rw [cells_update hupdate hi hr]; rfl, hactive⟩
    · intro k r hr
      obtain ⟨hcommitted, ⟨r₀, hr₀, -, hp, rfl⟩ | hr⟩ := working_update hupdate hr
      · rw [Bool.and_eq_true_iff, beq_iff_eq] at hp
        obtain ⟨rfl, hactive⟩ := hp
        have hold := committed_of_view (fun r hk => (hheld k r hk).2.1) hr₀ hactive
        have hincident := (hcall.read k (List.mem_singleton_self k)).2 r₀ hr₀
        rw [hcommitted]
        exact ⟨hincident.symm, .inr ⟨hactive, rfl, r₀, hold, hactive, rfl⟩⟩
      · obtain ⟨hincident, hclosed, hold⟩ := hheld k r hr
        rw [hcommitted]
        exact ⟨hincident, .inl ⟨hclosed, hold⟩⟩
  · contradiction

theorem alertInv_raiseInserting {input : RaiseIncidentInput} {now now' : Int}
    (h : AlertInv hashtext s) (hc : s.calls.get c = some (.raiseInserting input now'))
    (hs : alertNext hashtext s c now (.raiseInserting input now') = some s') :
    AlertInv hashtext s' := by
  have hcall := h.calls c _ hc
  unfold alertNext at hs
  dsimp only at hs
  split at hs
  · rename_i alerts hinsert
    obtain rfl := Option.some.inj hs
    have hw := writesBy_insert hinsert
    obtain rfl := insert_eq hinsert
    have hnew : (s.alerts.append (some c) (input.row now')).cells s.alerts.seq =
        Cell.empty.write (some c) (input.row now') := if_pos rfl
    have hold : ∀ i, i ≠ s.alerts.seq →
        (s.alerts.append (some c) (input.row now')).cells i = s.alerts.cells i := fun i hi => if_neg hi
    refine alertInv_write h hw (callInv_raise hcall rfl rfl rfl ?_ ?_ ?_) ?_
    · intro i r hr hactive hincident
      by_contra hne
      rw [hold i fun heq => hne (List.mem_singleton.mpr heq)] at hr
      have := hcall.known _ _ rfl rfl i r hr hactive hincident
      contradiction
    · intro i hi
      contradiction
    · exact ⟨input.row now', by rw [hnew]; rfl, rfl⟩
    · intro k r hr
      by_cases hk : k = s.alerts.seq
      · subst hk
        rw [hnew] at hr ⊢
        obtain rfl := (Prod.mk.inj (Option.some.inj hr)).2
        exact ⟨rfl, .inr ⟨rfl, rfl, rfl⟩⟩
      · rw [hold k hk] at hr ⊢
        obtain ⟨call', hc', hholds⟩ := h.cells k c r hr
        obtain rfl := Option.some.inj (hc ▸ hc')
        exact ⟨hholds.1, .inl hholds.2⟩
  · contradiction

theorem alertInv_resolveLocking {sel : ResolveIncidentsInput} {rest : List (List Int)}
    {ids : List Nat} {now : Int} (h : AlertInv hashtext s)
    (hc : s.calls.get c = some (.resolveLocking sel [] rest ids))
    (hs : alertNext hashtext s c now (.resolveLocking sel [] rest ids) = some s') :
    AlertInv hashtext s' := by
  have hfree := not_working h hc fun _ _ _ hholds => hholds
  have hcall := h.calls c _ hc
  unfold alertNext at hs
  dsimp only at hs
  split at hs
  · rename_i got alerts hupdate
    obtain rfl := Option.some.inj hs
    refine alertInv_write h (writesBy_update hupdate) ⟨hcall.numbered, ?_, ?_, ?_, ?_⟩ ?_
    · intro incident hraised
      contradiction
    · intro incident ids' hraised
      contradiction
    · intro i hi
      contradiction
    · refine ⟨nodup_update hupdate, ?_⟩
      intro k hk
      obtain ⟨r, hr, -⟩ := (mem_update hupdate).mp hk
      exact ⟨_, by rw [cells_update hupdate hk hr]; rfl⟩
    · intro k r hr
      obtain ⟨hcommitted, ⟨r₀, hr₀, hk, hp, rfl⟩ | hr⟩ := working_update hupdate hr
      · have hactive : r₀.active = true := by
          simp only [ResolveIncidentsInput.selects, Bool.and_eq_true_iff] at hp
          exact hp.1.1.1.1
        have hold := committed_of_view (fun r hk => absurd hk (hfree k r)) hr₀ hactive
        rw [hcommitted]
        exact ⟨hk, rfl, r₀, hold, hactive, rfl⟩
      · exact absurd hr (hfree k r)
  · contradiction

theorem idle_resolveLocking {sel : ResolveIncidentsInput} {locks : List Int}
    {rest : List (List Int)} {ids : List Nat} :
    (AlertCall.resolveLocking sel locks rest ids).Idle := ⟨rfl, rfl, fun _ _ => trivial⟩

theorem alertInv_raiseCommitting {input : RaiseIncidentInput} {id : Nat} {created : Bool} {now : Int}
    (h : AlertInv hashtext s) (hc : s.calls.get c = some (.raiseCommitting input id created))
    (hs : alertNext hashtext s c now (.raiseCommitting input id created) = some s') :
    AlertInv hashtext s' := by
  have hone : ∀ incident, (AlertCall.raiseCommitting input id created).raised = some incident →
      ∃ id', (AlertCall.raiseCommitting input id created).known = some [id'] :=
    fun _ _ => ⟨id, rfl⟩
  cases created with
  | true =>
    cases hs
    refine alertInv_commit h hc hone (fun d => Registry.get_put_of_ne) ?_
    intro call' hcall'
    rw [Registry.get_put_self] at hcall'
    obtain rfl := Option.some.inj hcall'
    exact ⟨rfl, rfl, fun _ _ => trivial⟩
  | false =>
    cases hs
    refine alertInv_commit h hc hone (fun d => Registry.get_erase_of_ne) ?_
    intro call' hcall'
    rw [Registry.get_erase_self] at hcall'
    contradiction

theorem alertInv_resolveCommitting {sel : ResolveIncidentsInput} {rest : List (List Int)}
    {ids got : List Nat} (h : AlertInv hashtext s)
    (hc : s.calls.get c = some (.resolveCommitting sel rest ids got)) :
    AlertInv hashtext ((s.commit c).nextChunk c sel rest (ids ++ got)) := by
  have hone : ∀ incident, (AlertCall.resolveCommitting sel rest ids got).raised = some incident →
      ∃ id, (AlertCall.resolveCommitting sel rest ids got).known = some [id] := by
    intro incident hraised
    contradiction
  cases rest with
  | nil =>
    have hdone : AlertInv hashtext { s.commit c with calls := s.calls.erase c } :=
      alertInv_commit h hc hone (fun d => Registry.get_erase_of_ne) (by simp)
    exact { hdone with calls := fun d call hd => { hdone.calls d call hd with } }
  | cons chunk rest =>
    refine alertInv_commit h hc hone (fun d => Registry.get_put_of_ne) ?_
    intro call' hcall'
    rw [Registry.get_put_self] at hcall'
    obtain rfl := Option.some.inj hcall'
    exact idle_resolveLocking

theorem alertInv_delete {p : Nat → LiveAlert → Bool} (h : AlertInv hashtext s)
    (hs : s.delete p = some s') :
    AlertInv hashtext s' ∧ s'.calls = s.calls ∧ s'.started = s.started := by
  obtain ⟨hfades, heq⟩ := fades_delete hs
  rw [heq]
  exact ⟨alertInv_fades h hfades, rfl, rfl⟩

theorem alertInv_next {now : Int} (h : AlertInv hashtext s) (hc : s.calls.get c = some call)
    (hs : alertNext hashtext s c now call = some s') : AlertInv hashtext s' := by
  have hcall := h.calls c call hc
  cases call with
  | raiseLocking input at' =>
    have hfree := not_working h hc fun _ _ _ hholds => hholds
    obtain ⟨s₁, hlock, rfl⟩ := Option.map_eq_some_iff.mp hs
    obtain ⟨hinv, rfl⟩ := alertInv_lock h hlock
    refine alertInv_setCall hinv ⟨hcall.numbered, ?_, ?_, ?_, trivial⟩
      fun k r hk => absurd hk (hfree k r)
    · intro incident hraised
      obtain rfl := Option.some.inj hraised
      exact List.mem_cons_self
    · intro incident ids _ hknown
      contradiction
    · intro i hi
      contradiction
  | raiseReading input at' => exact alertInv_raiseReading h hc hs
  | raiseClosing input at' keep stale => exact alertInv_raiseClosing h hc hs
  | raiseBumping input at' keep => exact alertInv_raiseBumping h hc hs
  | raiseInserting input at' => exact alertInv_raiseInserting h hc hs
  | raiseCommitting input id created => exact alertInv_raiseCommitting h hc hs
  | raiseTrimming input id =>
    obtain ⟨s₁, htrim, rfl⟩ := Option.map_eq_some_iff.mp hs
    obtain ⟨hinv, hcalls, hstarted⟩ := alertInv_delete h htrim
    rw [← hcalls] at hc
    have hfree := not_working hinv hc fun _ _ _ hholds => hholds
    exact alertInv_setCall hinv (callInv_idle (hstarted ▸ hcall.numbered)
      ⟨rfl, rfl, fun _ _ => trivial⟩) fun k r hk => absurd hk (hfree k r)
  | raiseAnnouncing id =>
    cases hs
    have hdone := alertInv_endCall h (not_working h hc fun _ _ _ hholds => hholds)
    exact { hdone with calls := fun d call hd => { hdone.calls d call hd with } }
  | resolveReading sel =>
    have hfree := not_working h hc fun _ _ _ hholds => hholds
    unfold alertNext at hs
    dsimp only at hs
    split at hs
    · cases hs
      exact alertInv_endCall h hfree
    · cases hs
      exact alertInv_setCall h (callInv_idle hcall.numbered idle_resolveLocking)
        fun k r hk => absurd hk (hfree k r)
  | resolveLocking sel locks rest ids =>
    cases locks with
    | nil => exact alertInv_resolveLocking h hc hs
    | cons l locks =>
      have hfree := not_working h hc fun _ _ _ hholds => hholds
      obtain ⟨s₁, hlock, rfl⟩ := Option.map_eq_some_iff.mp hs
      obtain ⟨hinv, rfl⟩ := alertInv_lock h hlock
      exact alertInv_setCall hinv (callInv_idle hcall.numbered idle_resolveLocking)
        fun k r hk => absurd hk (hfree k r)
  | resolveCommitting sel rest ids got =>
    cases hs
    exact alertInv_resolveCommitting h hc
  | cleanupResolving retentionDays =>
    unfold alertNext at hs
    dsimp only at hs
    split at hs
    · rename_i ids alerts hupdate
      cases hs
      have hfades : Fades s.alerts alerts := fades_update (by simp [LiveAlert.resolve, LiveAlert.active,
        LiveAlert.incident]) hupdate
      have hinv := alertInv_fades h hfades
      have hfree := not_working hinv hc fun _ _ _ hholds => hholds
      exact alertInv_setCall hinv (callInv_idle hcall.numbered ⟨rfl, rfl, fun _ _ => trivial⟩)
        fun k r hk => absurd hk (hfree k r)
    · contradiction
  | cleanupDeleting retentionDays =>
    obtain ⟨s₁, hdelete, rfl⟩ := Option.map_eq_some_iff.mp hs
    obtain ⟨hinv, hcalls, -⟩ := alertInv_delete h hdelete
    rw [← hcalls] at hc
    exact alertInv_endCall hinv (not_working hinv hc fun _ _ _ hholds => hholds)

theorem alertInv_act {a : AlertAction} (h : AlertInv hashtext s)
    (hs : alertAct hashtext s a = some s') : AlertInv hashtext s' := by
  cases a with
  | raise input now =>
    simp only [alertAct] at hs
    split at hs
    · cases hs
      exact alertInv_start h ⟨rfl, rfl, fun _ _ => trivial⟩
    · contradiction
  | resolve sel =>
    simp only [alertAct] at hs
    split at hs
    · contradiction
    · cases hs
      exact alertInv_start h ⟨rfl, rfl, fun _ _ => trivial⟩
  | trim tenantId => exact (alertInv_delete h hs).1
  | cleanup retentionDays =>
    cases hs
    exact alertInv_start h ⟨rfl, rfl, fun _ _ => trivial⟩
  | setDevices devices =>
    cases hs
    exact { h with calls := fun d call hd => { h.calls d call hd with } }
  | next c now =>
    obtain ⟨call, hc, hnext⟩ := Option.bind_eq_some_iff.mp hs
    exact alertInv_next h hc hnext

theorem alertInv_step {a : AlertAction} (h : AlertInv hashtext s)
    (hs : alertStep hashtext s a = some s') : AlertInv hashtext s' := by
  obtain ⟨s₁, hact, rfl⟩ := Option.map_eq_some_iff.mp hs
  have hinv := alertInv_act h hact
  exact { hinv with calls := fun d call hd => { hinv.calls d call hd with } }

end inv

end Obliguard.Server

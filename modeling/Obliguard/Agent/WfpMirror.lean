import Obliguard.Agent.WfpFirewall
import Obliguard.Lib.Runs

/-!
# The mirror of the WFP backend

What the backend reports as banned is `applied`, a mirror of the filters in the engine. A stale filter can
have the id of an entry's filter: an outdated filter of a network has the id of its replacement. When its
deletion fails in the replay, the addition finds it there and counts as done, the id stays on the stale list,
and the next `Flush` deletes the only filter of an entry that the mirror keeps.

`wfp_mirror_sound` gives the mirror a condition on each call under which every reported key has a filter that
blocks it (`CallOk`); `wfp_mirror_drops` is the run above.
-/

namespace Obliguard.Agent

open HighBits Runs

/-! ## What the filters block -/

theorem value_of_mem {p : Net} {a : Addr} (ha : a ∈ p) :
    p.addr ≤ a.value ∧ a.value ≤ p.addr + (2 ^ p.host - 1) := by
  have hsame : a.value / 2 ^ p.host = p.addr / 2 ^ p.host := ha.2
  have hdvd : p.addr / 2 ^ p.host * 2 ^ p.host = p.addr := Nat.div_mul_cancel p.masked
  have hmod := Nat.div_add_mod a.value (2 ^ p.host)
  have hlt := Nat.mod_lt a.value (Nat.two_pow_pos p.host)
  rw [hsame, Nat.mul_comm, hdvd] at hmod
  omega

theorem holds_wfpRemoteMatch {p : Net} {a : Addr} (ha : a ∈ p) : (wfpRemoteMatch p).holds a = true := by
  have hfam : a.family = p.family := ha.1
  by_cases hhost : isHostEntry p = true
  · have hmasked : NetipPrefix.masked ⟨p.first, p.len, p.len_le⟩ = p := Net.ofAddr_self p
    simp only [WfMatch.holds, wfpRemoteMatch, hhost, if_true, hmasked, decide_true, Bool.true_and,
      decide_eq_true_eq]
    exact ha
  · obtain ⟨hle, hge⟩ := value_of_mem ha
    simp only [WfMatch.holds, wfpRemoteMatch, if_neg hhost, decide_true, Bool.true_and, Bool.and_eq_true,
      decide_eq_true_eq]
    exact ⟨⟨⟨hfam, hfam⟩, hle⟩, hge⟩

theorem blocks_buildRule {Id : Type} (ruleID : String → Id) (key : String) (p : Net) :
    (buildRule ruleID key p).Blocks p :=
  ⟨rfl, rfl, wfpRemoteMatch p, rfl, fun _ ha => holds_wfpRemoteMatch ha⟩

section mirror
variable {Id : Type} [DecidableEq Id] {ruleID : String → Id}

/-! ## Operations -/

/-- The filters after an operation that does not fail. -/
def opEffect (ruleID : String → Id) (l : List (WfRule Id)) : WfpOp Id → List (WfRule Id)
  | .stale id => l.filter (·.id ≠ id)
  | .add key p => if ruleID key ∈ l.map (·.id) then l else l ++ [buildRule ruleID key p]
  | .del _ id => l.filter (·.id ≠ id)

theorem filter_id_eq_self {l : List (WfRule Id)} {id : Id} (h : id ∉ l.map (·.id)) :
    l.filter (·.id ≠ id) = l := by
  rw [List.filter_eq_self]
  intro r hr
  rw [decide_eq_true_eq]
  rintro rfl
  exact h (List.mem_map_of_mem hr)

omit [DecidableEq Id] in
@[simp] theorem view_write (w : Wfp Id) (l : List (WfRule Id)) : (w.write l).view = l := by
  cases h : w.txn <;> simp [Wfp.write, Wfp.view, h]

omit [DecidableEq Id] in
@[simp] theorem write_write (w : Wfp Id) (l l' : List (WfRule Id)) : (w.write l).write l' = w.write l' := by
  cases h : w.txn <;> simp [Wfp.write, h]

omit [DecidableEq Id] in
@[simp] theorem write_view (w : Wfp Id) : w.write w.view = w := by
  obtain ⟨filters, txn⟩ := w
  cases txn <;> rfl

theorem deleteRule_succeeds (w : Wfp Id) (id : Id) :
    ∃ err, w.deleteRule false id = (w.write (w.view.filter (·.id ≠ id)), err) ∧
      (err = none ∨ err = some .notFound) := by
  by_cases hid : id ∈ w.view.map (·.id)
  · exact ⟨none, by simp [Wfp.deleteRule, hid], .inl rfl⟩
  · refine ⟨some .notFound, ?_, .inr rfl⟩
    rw [filter_id_eq_self hid, write_view]
    simp [Wfp.deleteRule, hid]

theorem addRule_succeeds (ruleID : String → Id) (w : Wfp Id) (key : String) (p : Net) :
    ∃ err, w.addRule false (buildRule ruleID key p) = (w.write (opEffect ruleID w.view (.add key p)), err) ∧
      (err = none ∨ err = some .alreadyExists) := by
  by_cases hid : ruleID key ∈ w.view.map (·.id)
  · refine ⟨some .alreadyExists, ?_, .inr rfl⟩
    rw [opEffect, if_pos hid, write_view]
    exact if_pos hid
  · refine ⟨none, ?_, .inl rfl⟩
    rw [opEffect, if_neg hid]
    exact if_neg hid

theorem execOp_eq (fails : Bool) (w : Wfp Id) (o : WfpOp Id) :
    execOp ruleID fails w o = if fails then (w, false) else (w.write (opEffect ruleID w.view o), true) := by
  cases fails with
  | true => cases o <;> simp [execOp, Wfp.deleteRule, Wfp.addRule]
  | false =>
    cases o with
    | stale id =>
      obtain ⟨err, herr, hok⟩ := deleteRule_succeeds w id
      simp [execOp, herr, hok, opEffect]
    | add key p =>
      obtain ⟨err, herr, hok⟩ := addRule_succeeds ruleID w key p
      simp [execOp, herr, hok]
    | del key id =>
      obtain ⟨err, herr, hok⟩ := deleteRule_succeeds w id
      simp [execOp, herr, hok, opEffect]

/-- What a list of operations did to the engine: those that took effect, in order. -/
structure Took (ruleID : String → Id) (fails : WfpOp Id → Prop) (w : Wfp Id) (ops : List (WfpOp Id))
    (w' : Wfp Id) (done : List (WfpOp Id)) : Prop where
  sub : done.Sublist ops
  engine : w' = w.write (done.foldl (opEffect ruleID) w.view)
  sure : ∀ o ∈ ops, ¬ fails o → o ∈ done

theorem took_nil (fails : WfpOp Id → Prop) (w : Wfp Id) : Took ruleID fails w [] w [] :=
  ⟨.slnil, (write_view w).symm, by simp⟩

theorem Took.cons {fails : WfpOp Id → Prop} {w w' : Wfp Id} {o : WfpOp Id} {ops done : List (WfpOp Id)}
    (h : Took ruleID fails (w.write (opEffect ruleID w.view o)) ops w' done) :
    Took ruleID fails w (o :: ops) w' (o :: done) := by
  refine ⟨h.sub.cons_cons o, ?_, fun a ha hfails => ?_⟩
  · rw [h.engine, write_write, view_write, List.foldl_cons]
  · rcases List.mem_cons.mp ha with rfl | ha
    · exact List.mem_cons_self
    · exact List.mem_cons_of_mem _ (h.sure a ha hfails)

theorem Took.skip {fails : WfpOp Id → Prop} {w w' : Wfp Id} {o : WfpOp Id} {ops done : List (WfpOp Id)}
    (h : Took ruleID fails w ops w' done) (ho : fails o) : Took ruleID fails w (o :: ops) w' done := by
  refine ⟨h.sub.cons o, h.engine, fun a ha hfails => ?_⟩
  rcases List.mem_cons.mp ha with rfl | ha
  · exact absurd ho hfails
  · exact h.sure a ha hfails

theorem took_replay (ruleID : String → Id) (fails : Nat → WfpOp Id → Bool) (ops : List (WfpOp Id))
    (i : Nat) (w : Wfp Id) :
    Took ruleID (fun o => ∃ j, fails j o = true) w ops (runOps ruleID fails false i w ops).1
      (runOps ruleID fails false i w ops).2.1 := by
  induction ops generalizing i w with
  | nil => exact took_nil _ w
  | cons o ops ih =>
    simp only [runOps, execOp_eq]
    cases hfails : fails i o with
    | true => exact (ih (i + 1) w).skip ⟨i, hfails⟩
    | false => exact (ih (i + 1) _).cons

theorem took_txn (fails : Nat → WfpOp Id → Bool) (ops : List (WfpOp Id)) (i : Nat) (w : Wfp Id)
    (hok : (runOps ruleID fails true i w ops).2.2 = true) :
    Took ruleID (fun _ => False) w ops (runOps ruleID fails true i w ops).1
      (runOps ruleID fails true i w ops).2.1 := by
  induction ops generalizing i w with
  | nil => exact took_nil _ w
  | cons o ops ih =>
    simp only [runOps, execOp_eq] at hok ⊢
    cases hfails : fails i o with
    | true => simp [hfails] at hok
    | false =>
      simp only [hfails, Bool.false_eq_true, if_false, if_true] at hok ⊢
      exact (ih (i + 1) _ hok).cons

theorem Took.mono {fails fails' : WfpOp Id → Prop} {w w' : Wfp Id} {ops done : List (WfpOp Id)}
    (h : Took ruleID fails w ops w' done) (hf : ∀ o, fails o → fails' o) : Took ruleID fails' w ops w' done :=
  ⟨h.sub, h.engine, fun o ho hfails => h.sure o ho (hfails ∘ hf o)⟩

theorem Took.append {fails : WfpOp Id → Prop} {w w' w'' : Wfp Id} {ops ops' done done' : List (WfpOp Id)}
    (h : Took ruleID fails w ops w' done) (h' : Took ruleID fails w' ops' w'' done') :
    Took ruleID fails w (ops ++ ops') w'' (done ++ done') := by
  refine ⟨h.sub.append h'.sub, ?_, fun o ho hfails => ?_⟩
  · rw [h'.engine, h.engine, write_write, view_write, List.foldl_append]
  · rcases List.mem_append.mp ho with ho | ho
    · exact List.mem_append_left _ (h.sure o ho hfails)
    · exact List.mem_append_right _ (h'.sure o ho hfails)

omit [DecidableEq Id] in
theorem write_of_closed {w : Wfp Id} (hw : w.txn = none) (l : List (WfRule Id)) : w.write l = ⟨l, none⟩ := by
  simp [Wfp.write, hw]

omit [DecidableEq Id] in
theorem txnBegin_eq {w w' : Wfp Id} {b : Bool} (h : w.txnBegin b = some w') :
    w' = ⟨w.filters, some w.filters⟩ := by
  unfold Wfp.txnBegin at h
  split at h
  · contradiction
  · exact (Option.some.inj h).symm

theorem runOps_write (ruleID : String → Id) (fails : Nat → WfpOp Id → Bool) (ops : List (WfpOp Id))
    (i : Nat) (w : Wfp Id) : ∃ l, (runOps ruleID fails true i w ops).1 = w.write l := by
  induction ops generalizing i w with
  | nil => exact ⟨w.view, (write_view w).symm⟩
  | cons o ops ih =>
    simp only [runOps, execOp_eq]
    cases fails i o with
    | true => exact ⟨w.view, (write_view w).symm⟩
    | false =>
      obtain ⟨l, hl⟩ := ih (i + 1) (w.write (opEffect ruleID w.view o))
      exact ⟨l, hl.trans (write_write w _ l)⟩

theorem took_commitBatch (ruleID : String → Id) {φ : BatchFaults Id} {w : Wfp Id}
    (batch : List (WfpOp Id)) (hw : w.txn = none) (habort : φ.noAbort = false) :
    Took ruleID (fun o => ∃ j, φ.replay j o = true) w batch (commitBatch ruleID φ w batch).1
      (commitBatch ruleID φ w batch).2 := by
  have hreplay := took_replay ruleID φ.replay batch 0 w
  unfold commitBatch
  cases hbegin : w.txnBegin φ.noBegin with
  | none => exact hreplay
  | some w1 =>
    obtain rfl := txnBegin_eq hbegin
    obtain ⟨l, hl⟩ := runOps_write ruleID φ.inTxn batch 0 ⟨w.filters, some w.filters⟩
    have hrollback :
        (runOps ruleID φ.inTxn true 0 ⟨w.filters, some w.filters⟩ batch).1.txnAbort false = w := by
      rw [hl]
      obtain ⟨filters, txn⟩ := w
      obtain rfl : txn = none := hw
      rfl
    simp only [habort, hrollback]
    split
    · rename_i hok
      have htook := took_txn φ.inTxn batch 0 _ hok
      cases hcommit : (runOps ruleID φ.inTxn true 0 ⟨w.filters, some w.filters⟩ batch).1.txnCommit
        φ.noCommit with
      | none => exact hreplay
      | some w2 =>
        refine ⟨htook.sub, ?_, fun o ho _ => htook.sure o ho not_false⟩
        unfold Wfp.txnCommit at hcommit
        split at hcommit
        · contradiction
        · have hview : w.view = w.filters := by simp [Wfp.view, hw]
          show w2 = w.write (List.foldl (opEffect ruleID) w.view _)
          rw [← Option.some.inj hcommit, htook.engine, view_write, write_of_closed hw, hview]
          rfl
    · exact hreplay

/-! ## A flush -/

theorem took_flush (ruleID : String → Id) {φ : FlushRun Id} {f : WFPFirewall Id}
    (hf : f.closed = false) (htxn : f.sess.txn = none) (habort : ∀ i, (φ.batches i).noAbort = false) :
    ∃ done, Took ruleID (fun o => ∃ i j, (φ.batches i).replay j o = true) f.sess (f.flushOps φ)
        (f.flush ruleID φ).1.sess done ∧
      (f.flush ruleID φ).1.applied = done.foldl (recordOp ruleID) f.applied ∧
      (f.flush ruleID φ).1.desired = f.desired ∧ (f.flush ruleID φ).1.closed = false := by
  have hbatches : ∀ (bs : List (List (WfpOp Id) × Nat)) (st : Batches Id), st.sess.txn = none →
      ∃ done, Took ruleID (fun o => ∃ i j, (φ.batches i).replay j o = true) st.sess (bs.map (·.1)).flatten
          (bs.foldl (flushBatch ruleID φ) st).sess done ∧
        (bs.foldl (flushBatch ruleID φ) st).applied = done.foldl (recordOp ruleID) st.applied := by
    intro bs
    induction bs with
    | nil => exact fun st _ => ⟨[], took_nil _ _, rfl⟩
    | cons b bs ih =>
      intro st hst
      have hbatch := took_commitBatch ruleID b.1 hst (habort b.2)
      have htxn' : (flushBatch ruleID φ st b).sess.txn = none := by
        show (commitBatch ruleID (φ.batches b.2) st.sess b.1).1.txn = none
        rw [hbatch.engine, write_of_closed hst]
      obtain ⟨done, htook, happlied⟩ := ih (flushBatch ruleID φ st b) htxn'
      refine ⟨_, (hbatch.mono fun o ⟨j, hj⟩ => ⟨b.2, j, hj⟩).append htook, ?_⟩
      rw [List.foldl_append, List.foldl_cons, happlied]
      rfl
  have hflush : f.flush ruleID φ = _ := if_neg (by rw [hf]; decide)
  obtain ⟨done, htook, happlied⟩ := hbatches (slices wfpBatchSize (f.flushOps φ)).zipIdx
    ⟨f.sess, f.applied, []⟩ htxn
  rw [List.zipIdx_map_fst, flatten_slices (by decide)] at htook
  rw [hflush]
  exact ⟨done, htook, happlied, rfl, hf⟩

/-! ## The mirror -/

/-- The network that a key prints or reads as. -/
def KeyNames (k : String) (p : Net) : Prop := keyForPrefix p = k ∨ (canon k).map (·.2) = some p

/-- Every filter of this id blocks the network. -/
def Clear (l : List (WfRule Id)) (id : Id) (p : Net) : Prop := ∀ r ∈ l, r.id = id → r.Blocks p

/-- A filter of this id blocks the network. -/
def Backed (l : List (WfRule Id)) (id : Id) (p : Net) : Prop := ∃ r ∈ l, r.id = id ∧ r.Blocks p

/-- Between two calls: a reported key has its filter. -/
structure Mirrors (ruleID : String → Id) (f : WFPFirewall Id) : Prop where
  opened : f.closed = false
  txn : f.sess.txn = none
  ids : ∀ k id, f.applied.lookup k = some id → id = ruleID k
  names : ∀ k p, f.desired.lookup k = some p → KeyNames k p
  backed : ∀ k ∈ f.applied, ∃ p, KeyNames k p ∧ Backed f.sess.filters (ruleID k) p

/-- The keys that a `Flush` works on. -/
def InPlay (f : WFPFirewall Id) (k : String) : Prop := k ∈ f.desired ∨ k ∈ f.applied

/-- A `Flush` of keys with different ids, in which no deletion of a stale filter takes another entry's
filter along, and no addition passes for done over a filter that blocks something else. -/
structure FlushOk (ruleID : String → Id) (f : WFPFirewall Id) (φ : FlushRun Id) : Prop where
  keys : ∀ k k', InPlay f k → InPlay f k' → ruleID k = ruleID k' → k = k'
  aborts : ∀ i, (φ.batches i).noAbort = false
  stale : ∀ k id, f.applied.lookup k = some id → id ∉ f.stale
  adds : ∀ k p, f.desired.lookup k = some p → k ∉ f.applied →
    Clear f.sess.filters (ruleID k) p ∨
      (ruleID k ∈ f.stale ∧ ∀ i j, (φ.batches i).replay j (.stale (ruleID k)) = false)

/-- A filter that is recognised as an entry's blocks it. -/
def EnumOk (ruleID : String → Id) (rules : List (WfRule Id)) : Prop :=
  ∀ r ∈ rules, ∀ m p, r.provider = .obliguard ∨ r.sublayer = .obliguard → r.conditions = [m] →
    wfpMatchPrefix m = some (p, true) → r.id = ruleID (keyForPrefix p) → r.Blocks p

/-- The operation deletes filters of this id. -/
def Deletes (o : WfpOp Id) (id : Id) : Prop := o = .stale id ∨ ∃ k, o = .del k id

theorem backed_opEffect {l : List (WfRule Id)} {o : WfpOp Id} {id : Id} {p : Net} (h : Backed l id p)
    (ho : ¬ Deletes o id) : Backed (opEffect ruleID l o) id p := by
  obtain ⟨r, hr, rfl, hblocks⟩ := h
  refine ⟨r, ?_, rfl, hblocks⟩
  cases o with
  | stale id =>
    refine List.mem_filter.mpr ⟨hr, decide_eq_true ?_⟩
    rintro rfl
    exact ho (.inl rfl)
  | add key q =>
    rw [opEffect]
    split
    · exact hr
    · exact List.mem_append_left _ hr
  | del key id =>
    refine List.mem_filter.mpr ⟨hr, decide_eq_true ?_⟩
    rintro rfl
    exact ho (.inr ⟨key, rfl⟩)

theorem backed_foldl {l : List (WfRule Id)} {ops : List (WfpOp Id)} {id : Id} {p : Net} (h : Backed l id p)
    (hops : ∀ o ∈ ops, ¬ Deletes o id) : Backed (ops.foldl (opEffect ruleID) l) id p := by
  induction ops generalizing l with
  | nil => exact h
  | cons o ops ih =>
    have ⟨ho, hrest⟩ := List.forall_mem_cons.mp hops
    exact ih (backed_opEffect h ho) hrest

theorem clear_opEffect {l : List (WfRule Id)} {o : WfpOp Id} {id : Id} {p : Net} (h : Clear l id p)
    (ho : ∀ k q, o = .add k q → ruleID k = id → q = p) : Clear (opEffect ruleID l o) id p := by
  intro r hr hid
  cases o with
  | stale id => exact h r (List.mem_filter.mp hr).1 hid
  | del key id => exact h r (List.mem_filter.mp hr).1 hid
  | add key q =>
    rw [opEffect] at hr
    split at hr
    · exact h r hr hid
    · rcases List.mem_append.mp hr with hr | hr
      · exact h r hr hid
      · obtain rfl := List.mem_singleton.mp hr
        rw [← ho key q rfl hid]
        exact blocks_buildRule ruleID key q

theorem clear_foldl {l : List (WfRule Id)} {ops : List (WfpOp Id)} {id : Id} {p : Net} (h : Clear l id p)
    (hops : ∀ k q, .add k q ∈ ops → ruleID k = id → q = p) : Clear (ops.foldl (opEffect ruleID) l) id p := by
  induction ops generalizing l with
  | nil => exact h
  | cons o ops ih =>
    refine ih (clear_opEffect h fun k q ho => ?_) fun k q hq => hops k q (List.mem_cons_of_mem o hq)
    exact hops k q (ho ▸ List.mem_cons_self)

theorem clear_stale (l : List (WfRule Id)) (id : Id) (p : Net) :
    Clear (opEffect ruleID l (.stale id)) id p := by
  intro r hr hid
  exact absurd hid (of_decide_eq_true (List.mem_filter.mp hr).2)

theorem backed_add {l : List (WfRule Id)} {key : String} {p : Net} (h : Clear l (ruleID key) p) :
    Backed (opEffect ruleID l (.add key p)) (ruleID key) p := by
  rw [opEffect]
  split
  · rename_i hid
    obtain ⟨r, hr, hid⟩ := List.mem_map.mp hid
    exact ⟨r, hr, hid, h r hr hid⟩
  · exact ⟨_, List.mem_append_right _ (List.mem_singleton_self _), rfl, blocks_buildRule ruleID key p⟩

/-! ## The mirror after operations -/

section record
omit [DecidableEq Id]
variable {m : AList fun _ : String => Id} {ops : List (WfpOp Id)}

theorem ids_record (h : ∀ k id, m.lookup k = some id → id = ruleID k) :
    ∀ k id, (ops.foldl (recordOp ruleID) m).lookup k = some id → id = ruleID k := by
  induction ops generalizing m with
  | nil => exact h
  | cons o ops ih =>
    refine ih fun k id hk => ?_
    cases o with
    | stale id => exact h k _ hk
    | add key p =>
      by_cases hkey : k = key
      · subst hkey
        rw [recordOp, AList.lookup_insert] at hk
        exact (Option.some.inj hk).symm
      · rw [recordOp, AList.lookup_insert_ne hkey] at hk
        exact h k id hk
    | del key i =>
      by_cases hkey : k = key
      · subst hkey
        rw [recordOp, AList.lookup_erase] at hk
        contradiction
      · rw [recordOp, AList.lookup_erase_ne hkey] at hk
        exact h k id hk

theorem mem_record {k : String} (hk : k ∈ ops.foldl (recordOp ruleID) m) :
    k ∈ m ∨ ∃ p, .add k p ∈ ops := by
  induction ops generalizing m with
  | nil => exact .inl hk
  | cons o ops ih =>
    rcases ih hk with hk | ⟨p, hp⟩
    · cases o with
      | stale id => exact .inl hk
      | add key p =>
        rcases (AList.mem_insert m).mp hk with rfl | hk
        · exact .inr ⟨p, List.mem_cons_self⟩
        · exact .inl hk
      | del key id => exact .inl (AList.mem_erase.mp hk).2
    · exact .inr ⟨p, List.mem_cons_of_mem o hp⟩

theorem not_mem_record {k : String} (hdels : ∀ o ∈ ops, ∃ k id, o = .del k id)
    (hk : k ∈ ops.foldl (recordOp ruleID) m) : k ∈ m ∧ ∀ id, .del k id ∉ ops := by
  induction ops generalizing m with
  | nil => exact ⟨hk, by simp⟩
  | cons o ops ih =>
    obtain ⟨⟨key, id, rfl⟩, hrest⟩ := List.forall_mem_cons.mp hdels
    obtain ⟨hk, hnot⟩ := ih hrest hk
    obtain ⟨hne, hk⟩ := AList.mem_erase.mp hk
    refine ⟨hk, fun id' hmem => ?_⟩
    rcases List.mem_cons.mp hmem with heq | hmem
    · exact hne (WfpOp.del.inj heq).1
    · exact hnot id' hmem

end record

/-! ## Flush -/

omit [DecidableEq Id] in
theorem mem_flushOps {φ : FlushRun Id} {f : WFPFirewall Id} {done : List (WfpOp Id)}
    (h : done.Sublist (f.flushOps φ)) : ∃ stale adds dels, done = stale ++ adds ++ dels ∧
      (∀ o ∈ stale, ∃ id ∈ f.stale, o = .stale id) ∧
      (∀ o ∈ adds, ∃ k p, o = .add k p ∧ f.desired.lookup k = some p ∧ k ∉ f.applied) ∧
      ∀ o ∈ dels, ∃ k id, o = .del k id ∧ f.applied.lookup k = some id ∧ k ∉ f.desired := by
  obtain ⟨front, dels, rfl, hfront, hdels⟩ := List.sublist_append_iff.mp h
  obtain ⟨stale, adds, rfl, hstale, hadds⟩ := List.sublist_append_iff.mp hfront
  refine ⟨stale, adds, dels, rfl, fun o ho => ?_, fun o ho => ?_, fun o ho => ?_⟩
  · obtain ⟨id, hid, rfl⟩ := List.mem_map.mp (hstale.subset ho)
    exact ⟨id, hid, rfl⟩
  · obtain ⟨e, he, rfl⟩ := List.mem_map.mp (hadds.subset ho)
    obtain ⟨he, hnot⟩ := List.mem_filter.mp he
    exact ⟨e.1, e.2, rfl, AList.mem_lookup_iff.mpr ((φ.adds.perm _).mem_iff.mp he), of_decide_eq_true hnot⟩
  · obtain ⟨e, he, rfl⟩ := List.mem_map.mp (hdels.subset ho)
    obtain ⟨he, hnot⟩ := List.mem_filter.mp he
    exact ⟨e.1, e.2, rfl, AList.mem_lookup_iff.mpr ((φ.dels.perm _).mem_iff.mp he), of_decide_eq_true hnot⟩

theorem backed_done {φ : FlushRun Id} {f : WFPFirewall Id}
    (h : Mirrors ruleID f) (hok : FlushOk ruleID f φ) {w : Wfp Id} {done : List (WfpOp Id)}
    (htook : Took ruleID (fun o => ∃ i j, (φ.batches i).replay j o = true) f.sess (f.flushOps φ) w done)
    {k : String} (hk : k ∈ done.foldl (recordOp ruleID) f.applied) :
    ∃ p, KeyNames k p ∧ Backed (done.foldl (opEffect ruleID) f.sess.filters) (ruleID k) p := by
  obtain ⟨stale, adds, dels, rfl, hstale, hadds, hdels⟩ := mem_flushOps htook.sub
  rw [List.foldl_append] at hk ⊢
  obtain ⟨hk, hnot⟩ := not_mem_record (fun o ho => (hdels o ho).imp fun k hk => hk.imp fun id hid => hid.1) hk
  have hplay : InPlay f k := by
    rcases mem_record hk with hk | ⟨p, hp⟩
    · exact .inr hk
    · rcases List.mem_append.mp hp with hp | hp
      · obtain ⟨_, -, heq⟩ := hstale _ hp
        contradiction
      · obtain ⟨k', p', heq, hlook, -⟩ := hadds _ hp
        obtain ⟨rfl, rfl⟩ := WfpOp.add.inj heq
        exact .inl (AList.lookup_isSome.mp (by rw [hlook]; rfl))
  have hlast : ∀ o ∈ dels, ¬ Deletes o (ruleID k) := by
    rintro o ho (rfl | ⟨k', rfl⟩)
    · obtain ⟨_, _, heq, -⟩ := hdels _ ho
      contradiction
    · obtain ⟨k'', id, heq, hlook, -⟩ := hdels _ ho
      obtain ⟨rfl, rfl⟩ := WfpOp.del.inj heq
      have hplay' : InPlay f k' := .inr (AList.lookup_isSome.mp (by rw [hlook]; rfl))
      obtain rfl := hok.keys k k' hplay hplay' (h.ids _ _ hlook)
      exact hnot _ ho
  suffices hmid : ∃ p, KeyNames k p ∧
      Backed ((stale ++ adds).foldl (opEffect ruleID) f.sess.filters) (ruleID k) p by
    obtain ⟨p, hname, hback⟩ := hmid
    exact ⟨p, hname, backed_foldl hback hlast⟩
  rcases mem_record hk with hk | ⟨p, hp⟩
  · -- an entry of the mirror: neither the stale deletions nor the additions touch its filter
    obtain ⟨id, hid⟩ := Option.isSome_iff_exists.mp (AList.lookup_isSome.mpr hk)
    obtain ⟨p, hname, hback⟩ := h.backed k hk
    refine ⟨p, hname, backed_foldl hback ?_⟩
    rintro o ho (rfl | ⟨k', rfl⟩)
    · rcases List.mem_append.mp ho with ho | ho
      · obtain ⟨id', hid', heq⟩ := hstale _ ho
        obtain rfl := WfpOp.stale.inj heq
        exact hok.stale k id hid (h.ids k id hid ▸ hid')
      · obtain ⟨_, _, heq, -⟩ := hadds _ ho
        contradiction
    · rcases List.mem_append.mp ho with ho | ho
      · obtain ⟨_, -, heq⟩ := hstale _ ho
        contradiction
      · obtain ⟨_, _, heq, -⟩ := hadds _ ho
        contradiction
  · -- a new entry: its id is clear when its turn comes
    rcases List.mem_append.mp hp with hp | hp
    · obtain ⟨_, -, heq⟩ := hstale _ hp
      contradiction
    · obtain ⟨k', p', heq, hlook, hnew⟩ := hadds _ hp
      obtain ⟨rfl, rfl⟩ := WfpOp.add.inj heq
      refine ⟨p, h.names k p hlook, ?_⟩
      have hsame : ∀ k' q, .add k' q ∈ stale ++ adds → ruleID k' = ruleID k → q = p := by
        intro k' q hq hid
        rcases List.mem_append.mp hq with hq | hq
        · obtain ⟨_, -, heq⟩ := hstale _ hq
          contradiction
        · obtain ⟨_, _, heq, hlook', -⟩ := hadds _ hq
          obtain ⟨rfl, rfl⟩ := WfpOp.add.inj heq
          obtain rfl := hok.keys _ k (.inl (AList.lookup_isSome.mp (by rw [hlook']; rfl))) hplay hid
          exact Option.some.inj (hlook'.symm.trans hlook)
      have hclear : Clear (stale.foldl (opEffect ruleID) f.sess.filters) (ruleID k) p := by
        rcases hok.adds k p hlook hnew with hclear | ⟨hmem, hsure⟩
        · exact clear_foldl hclear fun k' q hq => hsame k' q (List.mem_append_left _ hq)
        · have hdone := htook.sure (.stale (ruleID k))
            (List.mem_append_left _ (List.mem_append_left _ (List.mem_map_of_mem hmem)))
            (by rintro ⟨i, j, hfail⟩; rw [hsure i j] at hfail; contradiction)
          have hfirst : .stale (ruleID k) ∈ stale := by
            rcases List.mem_append.mp hdone with ho | ho
            · rcases List.mem_append.mp ho with ho | ho
              · exact ho
              · obtain ⟨_, _, heq, -⟩ := hadds _ ho
                contradiction
            · obtain ⟨_, _, heq, -⟩ := hdels _ ho
              contradiction
          obtain ⟨before, after, rfl⟩ := List.append_of_mem hfirst
          rw [List.foldl_append, List.foldl_cons]
          exact clear_foldl (clear_stale _ _ p) fun k' q hq => hsame k' q (by simp [hq])
      obtain ⟨before, after, rfl⟩ := List.append_of_mem hp
      rw [List.foldl_append, List.foldl_append, List.foldl_cons]
      refine backed_foldl (backed_add (clear_foldl hclear fun k' q hq => hsame k' q ?_)) ?_
      · simp [hq]
      · rintro o ho (rfl | ⟨k', rfl⟩)
        · obtain ⟨_, _, heq, -⟩ := hadds (.stale (ruleID k)) (by simp [ho])
          contradiction
        · obtain ⟨_, _, heq, -⟩ := hadds (.del k' (ruleID k)) (by simp [ho])
          contradiction

theorem mirrors_flush {φ : FlushRun Id} {f : WFPFirewall Id}
    (h : Mirrors ruleID f) (hok : FlushOk ruleID f φ) : Mirrors ruleID (f.flush ruleID φ).1 := by
  obtain ⟨done, htook, happlied, hdesired, hclosed⟩ := took_flush ruleID h.opened h.txn hok.aborts
  have hview : f.sess.view = f.sess.filters := by simp [Wfp.view, h.txn]
  have hengine := htook.engine
  rw [write_of_closed h.txn, hview] at hengine
  refine ⟨hclosed, by rw [hengine], ?_, ?_, fun k hk => ?_⟩
  · rw [happlied]
    exact ids_record h.ids
  · rw [hdesired]
    exact h.names
  · rw [hengine]
    exact backed_done h hok htook (happlied ▸ hk)

/-! ## Reading the engine -/

theorem classified_spec {rules : List (WfRule Id)} (hok : EnumOk ruleID rules)
    {P : String → Id → Prop} (hP : ∀ r ∈ rules, ∀ p, r.id = ruleID (keyForPrefix p) → r.Blocks p →
      P (keyForPrefix p) r.id) {l : List (WfRule Id)} (hl : ∀ r ∈ l, r ∈ rules)
    {st : (AList fun _ : String => Id) × List Id} (hst : ∀ k id, st.1.lookup k = some id → P k id) :
    ∀ k id, (l.foldl (classifyRule ruleID) st).1.lookup k = some id → P k id := by
  induction l generalizing st with
  | nil => exact hst
  | cons r l ih =>
    obtain ⟨hr, hl⟩ := List.forall_mem_cons.mp hl
    refine ih hl fun k id hk => ?_
    unfold classifyRule at hk
    split at hk
    · exact hst k id hk
    · rename_i howner
      split at hk
      · rename_i m hconds
        split at hk
        · rename_i p hmatch
          simp only at hk
          split at hk
          · exact hst k id hk
          · rename_i hnew
            obtain ⟨hid, -⟩ : r.id = ruleID (keyForPrefix p) ∧ keyForPrefix p ∉ st.1 := by
              rw [not_or, not_not] at hnew
              exact hnew
            by_cases hkey : k = keyForPrefix p
            · subst hkey
              rw [AList.lookup_insert] at hk
              rw [← Option.some.inj hk]
              refine hP r hr p hid (hok r hr m p ?_ hconds hmatch hid)
              rw [not_and_or, not_not, not_not] at howner
              exact howner
            · rw [AList.lookup_insert_ne hkey] at hk
              exact hst k id hk
        · exact hst k id hk
      · exact hst k id hk

theorem classify_spec {rules : List (WfRule Id)} (hok : EnumOk ruleID rules) :
    ∀ k id, (classifyWFPRules ruleID rules).1.lookup k = some id →
      id = ruleID k ∧ ∃ p, KeyNames k p ∧ Backed rules (ruleID k) p := by
  refine classified_spec hok (fun r hr p hid hblocks => ?_) (fun _ hr => hr) fun k id hk => ?_
  · exact ⟨hid, p, .inl rfl, r, hr, hid, hblocks⟩
  · rw [AList.lookup_empty] at hk
    contradiction

theorem mirrors_reread {f : WFPFirewall Id} (h : Mirrors ruleID f) (hok : EnumOk ruleID f.sess.view) :
    Mirrors ruleID (f.reread ruleID) := by
  have hspec := classify_spec hok
  have hview : f.sess.view = f.sess.filters := by simp [Wfp.view, h.txn]
  refine ⟨h.opened, h.txn, fun k id hk => (hspec k id hk).1, h.names, fun k hk => ?_⟩
  obtain ⟨id, hid⟩ := Option.isSome_iff_exists.mp (AList.lookup_isSome.mpr hk)
  obtain ⟨-, p, hname, hback⟩ := hspec k id hid
  rw [hview] at hback
  exact ⟨p, hname, hback⟩

/-! ## Calls -/

omit [DecidableEq Id] in
theorem Mirrors.addDesired {f : WFPFirewall Id} (h : Mirrors ruleID f) {k : String} {p : Net}
    (hname : KeyNames k p) : Mirrors ruleID (f.addDesiredLocked k p).1 := by
  unfold WFPFirewall.addDesiredLocked
  split
  · exact h
  · split
    · exact h
    · refine ⟨h.opened, h.txn, h.ids, fun k' q hq => ?_, h.backed⟩
      by_cases hkey : k' = k
      · subst hkey
        rw [AList.lookup_insert] at hq
        exact Option.some.inj hq ▸ hname
      · rw [AList.lookup_insert_ne hkey] at hq
        exact h.names k' q hq

theorem keyNames_canon {ip k : String} {p : Net} (h : canon ip = some (k, p)) : KeyNames k p := by
  simp only [canon] at h
  split at h
  · contradiction
  · obtain ⟨q, -, heq⟩ := Option.map_eq_some_iff.mp h
    obtain ⟨rfl, rfl⟩ := Prod.mk.inj heq
    exact .inl rfl

/-- What a call meets. -/
def CallOk (ruleID : String → Id) (f : WFPFirewall Id) : WfpCall Id → Prop
  | .ban _ => True
  | .unban _ => True
  | .flush φ => FlushOk ruleID f φ
  | .resync enumerated φ => enumerated = true →
    EnumOk ruleID f.sess.view ∧ ((f.reread ruleID).needFlush = true → FlushOk ruleID (f.reread ruleID) φ)

theorem mirrors_call {f : WFPFirewall Id} (h : Mirrors ruleID f)
    {c : WfpCall Id} (hok : CallOk ruleID f c) : Mirrors ruleID (f.call ruleID c) := by
  cases c with
  | ban ip =>
    cases hip : canon ip with
    | none =>
      have hsame : f.call ruleID (.ban ip) = f := by simp [WFPFirewall.call, WFPFirewall.banIP, hip]
      rw [hsame]
      exact h
    | some kp =>
      have hadd : f.call ruleID (.ban ip) = (f.addDesiredLocked kp.1 kp.2).1 := by
        simp [WFPFirewall.call, WFPFirewall.banIP, hip]
      exact hadd ▸ h.addDesired (keyNames_canon hip)
  | unban ip =>
    cases hip : canon ip with
    | none =>
      have hsame : f.call ruleID (.unban ip) = f := by simp [WFPFirewall.call, WFPFirewall.unbanIP, hip]
      rw [hsame]
      exact h
    | some kp =>
      have herase : f.call ruleID (.unban ip) = { f with desired := f.desired.erase kp.1 } := by
        simp [WFPFirewall.call, WFPFirewall.unbanIP, hip]
      rw [herase]
      refine ⟨h.opened, h.txn, h.ids, fun k p hp => ?_, h.backed⟩
      by_cases hkey : k = kp.1
      · subst hkey
        rw [AList.lookup_erase] at hp
        contradiction
      · rw [AList.lookup_erase_ne hkey] at hp
        exact h.names k p hp
  | flush φ => exact mirrors_flush h hok
  | resync enumerated φ =>
    show Mirrors ruleID (f.resync ruleID enumerated φ)
    unfold WFPFirewall.resync
    split
    · exact h
    · rename_i hgo
      have henum : enumerated = true := by
        rw [not_or, not_not] at hgo
        exact hgo.2
      obtain ⟨henumOk, hflushOk⟩ := hok henum
      have hreread := mirrors_reread h henumOk
      simp only
      split
      · rename_i hneed
        exact mirrors_flush hreread (hflushOk hneed)
      · exact hreread

/-! ## Runs -/

omit [DecidableEq Id] in
theorem Mirrors.addAll {α : Type} {f : WFPFirewall Id} (h : Mirrors ruleID f) {l : List α}
    {add : WFPFirewall Id → α → WFPFirewall Id}
    (hadd : ∀ f a, a ∈ l → Mirrors ruleID f → Mirrors ruleID (add f a)) : Mirrors ruleID (l.foldl add f) := by
  induction l generalizing f with
  | nil => exact h
  | cons a l ih =>
    exact ih (hadd f a List.mem_cons_self h) fun f b hb => hadd f b (List.mem_cons_of_mem a hb)

theorem keyNames_readWFPBanlist (data : List Char) :
    ∀ k p, (readWFPBanlist data).lookup k = some p → KeyNames k p := by
  rw [readWFPBanlist]
  refine List.foldlRecOn (motive := fun m : DesiredMap => ∀ k p, m.lookup k = some p → KeyNames k p) _ _
    (fun k p hk => ?_) fun m hm line _ k p hk => ?_
  · rw [AList.lookup_empty] at hk
    contradiction
  · split at hk
    · rename_i k' p' hline
      by_cases hkey : k = k'
      · subst hkey
        rw [AList.lookup_insert] at hk
        exact Option.some.inj hk ▸ keyNames_canon hline
      · rw [AList.lookup_insert_ne hkey] at hk
        exact hm k p hk
    · exact hm k p hk

theorem mirrors_open (o : OpenRun Id) {filters : List (WfRule Id)}
    (hok : o.enumerated = true → EnumOk ruleID filters) :
    Mirrors ruleID (openWFPFirewall ruleID o ⟨filters, none⟩) := by
  have hstart : ∀ existing stale,
      (existing, stale) = (if o.enumerated then classifyWFPRules ruleID filters else (∅, [])) →
      Mirrors ruleID ⟨⟨filters, none⟩, ∅, existing, stale, false⟩ := by
    intro existing stale heq
    have hspec : ∀ k id, existing.lookup k = some id →
        id = ruleID k ∧ ∃ p, KeyNames k p ∧ Backed filters (ruleID k) p := by
      intro k id hk
      split at heq
      · rename_i henum
        rw [(Prod.mk.inj heq).1] at hk
        exact classify_spec (hok henum) k id hk
      · rw [(Prod.mk.inj heq).1, AList.lookup_empty] at hk
        contradiction
    refine ⟨rfl, rfl, fun k id hk => (hspec k id hk).1, fun k p hk => ?_, fun k hk => ?_⟩
    · rw [AList.lookup_empty] at hk
      contradiction
    · obtain ⟨id, hid⟩ := Option.isSome_iff_exists.mp (AList.lookup_isSome.mpr hk)
      exact (hspec k id hid).2
  unfold openWFPFirewall
  have hview : Wfp.view ⟨filters, none⟩ = filters := rfl
  simp only [hview]
  have hstart := hstart _ _ rfl
  split
  · refine hstart.addAll fun f e he hf => hf.addDesired ?_
    have hlook := AList.mem_lookup_iff.mpr ((o.listed.perm _).mem_iff.mp he)
    cases hbanlist : o.banlist with
    | none =>
      rw [hbanlist, Option.map_none, Option.getD_none, AList.lookup_empty] at hlook
      contradiction
    | some data =>
      rw [hbanlist] at hlook
      exact keyNames_readWFPBanlist data _ _ hlook
  · refine hstart.addAll fun f e _ hf => ?_
    split
    · rename_i k p hcanon
      exact hf.addDesired (.inr (by rw [hcanon]; rfl))
    · exact hf

def wfpStep (ruleID : String → Id) (f : WFPFirewall Id) (c : WfpCall Id) : Option (WFPFirewall Id) :=
  some (f.call ruleID c)

/-- When each call of a run meets its condition, every key reported afterwards has a filter in the engine
that blocks its network. -/
theorem wfp_mirror_sound (filters : List (WfRule Id)) (o : OpenRun Id)
    (hopen : o.enumerated = true → EnumOk ruleID filters) (calls : List (WfpCall Id))
    (hcalls : StepsMeet (wfpStep ruleID) (CallOk ruleID) (openWFPFirewall ruleID o ⟨filters, none⟩) calls)
    (f : WFPFirewall Id)
    (hf : run (wfpStep ruleID) (openWFPFirewall ruleID o ⟨filters, none⟩) calls = some f) :
    ∀ k ∈ f.getBannedIPs, ∃ p, KeyNames k p ∧ ∃ r ∈ f.sess.filters, r.Blocks p := by
  have h : Mirrors ruleID f := run_invariant (fun f c f' hf hok hstep => by
    obtain rfl := Option.some.inj hstep
    exact mirrors_call hf hok) (mirrors_open o hopen) hcalls hf
  intro k hk
  obtain ⟨p, hname, r, hr, -, hblocks⟩ := h.backed k (AList.mem_keys.mpr hk)
  exact ⟨p, hname, r, hr, hblocks⟩

end mirror

/-! ## An outdated filter -/

/-- The filter that an older agent wrote for `1.2.3.0/24`. -/
def outdatedRule : WfRule String where
  id := "1.2.3.0/24"
  layer := .authRecvAcceptV4
  sublayer := .obliguard
  provider := .obliguard
  action := .block
  conditions := [⟨.remoteAddress, .equal, .net ⟨⟨.v4, 0x01020300, by decide⟩, 24, by decide⟩⟩]

/-- A start with the outdated filter and its entry on the banlist. -/
def outdatedOpen : OpenRun String where
  enumerated := true
  banlist := some "1.2.3.0/24\n".toList
  listed := .asListed _
  existing := .asListed _

/-- A `Flush` in which the deletions of stale filters fail, or not. -/
def staleFaults (fails : Bool) : FlushRun String where
  adds := .asListed _
  dels := .asListed _
  batches _ :=
    { noBegin := false
      inTxn _ o := match o with
        | .stale _ => fails
        | _ => false
      noCommit := false
      noAbort := false
      replay _ o := match o with
        | .stale _ => fails
        | _ => false }

/-- `wfp_mirror_sound` on a `Flush` that replaces the outdated filter. -/
theorem wfp_mirror_sound_replaces :
    ∃ f, run (wfpStep id) (openWFPFirewall id outdatedOpen ⟨[outdatedRule], none⟩)
        [.flush (staleFaults false)] = some f ∧ f.getBannedIPs = ["1.2.3.0/24"] ∧
      ∀ k ∈ f.getBannedIPs, ∃ p, KeyNames k p ∧ ∃ r ∈ f.sess.filters, r.Blocks p := by
  have hopen : EnumOk id [outdatedRule] := by
    intro r hr m p _ hconds hmatch _
    rw [List.mem_singleton.mp hr] at hconds
    have hm : outdatedRule.conditions.map (fun m => (wfpMatchPrefix m).map (·.2)) = [some false] := by
      decide
    rw [hconds, List.map_singleton, hmatch] at hm
    exact absurd hm (by simp)
  refine ⟨_, rfl, by decide, ?_⟩
  refine wfp_mirror_sound [outdatedRule] outdatedOpen (fun _ => hopen)
    [.flush (staleFaults false)]
    ⟨⟨fun _ _ _ _ h => h, fun _ => rfl, fun k i hk => ?_,
      fun k p hk _ => .inr ⟨?_, fun _ _ => rfl⟩⟩, fun _ _ => trivial⟩ _ rfl
  · have hnone : (openWFPFirewall id outdatedOpen ⟨[outdatedRule], none⟩).applied.entries.isEmpty = true := by
      decide
    have hmem := AList.mem_lookup_iff.mp hk
    rw [List.isEmpty_iff.mp hnone] at hmem
    exact absurd hmem List.not_mem_nil
  · have hall : (openWFPFirewall id outdatedOpen ⟨[outdatedRule], none⟩).desired.entries.all
        (fun e => e.1 ∈ (openWFPFirewall id outdatedOpen ⟨[outdatedRule], none⟩).stale) = true := by
      decide
    exact of_decide_eq_true (List.all_eq_true.mp hall _ (AList.mem_lookup_iff.mp hk))

/-- The second `Flush` deletes the filter of an entry that is still reported. -/
theorem wfp_mirror_drops :
    ∃ f, run (wfpStep id) (openWFPFirewall id outdatedOpen ⟨[outdatedRule], none⟩)
        [.flush (staleFaults true), .flush (staleFaults false)] = some f ∧
      ¬ ∀ k ∈ f.getBannedIPs, ∃ p, KeyNames k p ∧ ∃ r ∈ f.sess.filters, r.Blocks p := by
  refine ⟨_, rfl, fun h => ?_⟩
  have hreport : "1.2.3.0/24" ∈ WFPFirewall.getBannedIPs (((openWFPFirewall id outdatedOpen
      ⟨[outdatedRule], none⟩).call id (.flush (staleFaults true))).call id (.flush (staleFaults false))) := by
    decide
  have hempty : (((openWFPFirewall id outdatedOpen ⟨[outdatedRule], none⟩).call id
      (.flush (staleFaults true))).call id (.flush (staleFaults false))).sess.filters.isEmpty = true := by
    decide
  obtain ⟨p, -, r, hr, -⟩ := h _ hreport
  rw [List.isEmpty_iff.mp hempty] at hr
  exact absurd hr List.not_mem_nil

end Obliguard.Agent

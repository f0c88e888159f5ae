import Obliguard.Agent.FirewallResync
import Obliguard.Canonical.Agreement
import Obliguard.Server.Delivery

/-!
# The bans of the server reach the firewall of an agent

A heartbeat reports the entries that the firewall holds; `handlePush` answers it with the delta of
`computeBanDelta` against the report; the agent canonicalises the delta and coalesces it with the
ones that its firewall worker has not applied yet. A delta moves every entry of its report that is
not as wanted, and none away from what is wanted (`touches_deltaOf`, `deltaOf_agrees`). So once the
database stops changing, whatever is still in flight does no harm, and a heartbeat sent from then on
settles every entry: it is right, or on its way (`OnItsWay`).
-/

namespace Obliguard.Server

open Bans IpValidation Text Agent Canonical Runs

/-! ## A delta on both sides -/

theorem banListKey_iff_reportedKey {r : String} (hr : TrimsAlike r) {n : Net} (hn : ¬ n.IsMapped) :
    banListKey r = some (String.ofList n.text) ↔ reportedKey r = String.ofList n.text := by
  cases hp : parseIpOrCidr r with
  | some p => rw [banListKey_eq_of_parse hr hp, reportedKey, hp, Option.some_inj]
  | none =>
    have hread : readTarget (jsTrim r.toList) = none := by
      rwa [parseIpOrCidr_eq, Option.map_eq_none_iff] at hp
    rw [banListKey_eq_of_not_parse hr hp, reportedKey, hp, plainKey]
    constructor
    · intro h
      split at h
      · contradiction
      · have htext := String.ofList_inj.mp (Option.some.inj h)
        rw [jsTrim_eq_goTrim hr, htext, readTarget_text hn] at hread
        contradiction
    · intro h
      dsimp only at h
      rw [h, String.toList_ofList, jsTrim_text hn, readTarget_text hn] at hread
      contradiction

/-- Texts of networks in canonical form, as the server delivers them. -/
def CanonicalTexts (texts : List String) : Prop :=
  ∀ t ∈ texts, ∃ n : Net, ¬ n.IsMapped ∧ t = String.ofList n.text

/-- A heartbeat reports a set: each entry in one spelling or more, with none of the two characters
that only one of the two languages trims. -/
def Reported (enforced : Finset String) (current : List String) : Prop :=
  Reports enforced current ∧ ∀ r ∈ current, TrimsAlike r

instance (enforced : Finset String) (current : List String) : Decidable (Reported enforced current) :=
  inferInstanceAs (Decidable (_ ∧ _))

/-- The operations that the agent makes of a delta, with a guard that refuses nothing. -/
def deltaOps (d : BanDelta) : Mailbox :=
  queueBanDelta .empty 0 (banFilter anyNet d.add) (canonicalBanList d.remove)

/-- A delta through `queueBanDelta`, `takeBanDelta` and `applyBanDelta`. -/
def applyDelta (enforced : Finset String) (d : BanDelta) : Finset String :=
  (takeBanDelta (deltaOps d)).foldl applyOp enforced

/-- The operation asks for what is wanted. -/
def OpAgrees (wanted : List String) (op : BanOp) : Prop := op.ban = decide (op.entry ∈ wanted)

/-- What the agent makes of a delta asks for what is wanted. -/
def DeltaAgrees (wanted add remove : List String) : Prop :=
  (∀ k ∈ banFilter anyNet add, k ∈ wanted) ∧ ∀ k ∈ canonicalBanList remove, k ∉ wanted

/-- The agent makes an operation on the entry of a delta. -/
def Touches (add remove : List String) (k : String) : Prop :=
  k ∈ banFilter anyNet add ∨ k ∈ canonicalBanList remove

section delta
variable {w current add remove : List String} {enforced : Finset String} {k : String}

theorem mem_banFilter_anyNet {adds : List String} :
    k ∈ banFilter anyNet adds ↔ ∃ r ∈ adds, ∃ p, canonicalBanEntry r = some (k, p) := by
  simp only [banFilter, mem_distinct, List.mem_filterMap, Option.bind_eq_some_iff, anyNet, if_true,
    Option.some_inj]
  constructor
  · rintro ⟨r, hr, ⟨k', p⟩, hp, rfl⟩
    exact ⟨r, hr, p, hp⟩
  · rintro ⟨r, hr, p, hp⟩
    exact ⟨r, hr, (k, p), hp, rfl⟩

theorem mem_banFilter_canonical (h : CanonicalTexts add) : k ∈ banFilter anyNet add ↔ k ∈ add := by
  have hself : ∀ t ∈ add, ∃ p, canonicalBanEntry t = some (t, p) := by
    intro t ht
    obtain ⟨n, hn, rfl⟩ := h t ht
    refine ⟨n, ?_⟩
    rw [canonicalBanEntry_eq, String.toList_ofList, goTrim_text hn, readTarget_text hn]
    rfl
  rw [mem_banFilter_anyNet]
  constructor
  · rintro ⟨r, hr, p, hp⟩
    obtain ⟨q, hq⟩ := hself r hr
    rw [hp] at hq
    have hkey : k = r := congrArg Prod.fst (Option.some.inj hq)
    rwa [hkey]
  · intro hk
    exact ⟨k, hk, hself k hk⟩

theorem reportedKey_eq_iff (hw : CanonicalTexts w) {r : String} (hr : TrimsAlike r) (hk : k ∈ w) :
    reportedKey r = k ↔ banListKey r = some k := by
  obtain ⟨n, hn, rfl⟩ := hw k hk
  exact (banListKey_iff_reportedKey hr hn).symm

theorem canonicalTexts_add (hw : CanonicalTexts w) : CanonicalTexts (deltaOf w current).add :=
  fun t ht => hw t (mem_add.mp ht).1

theorem mem_delta_add (hw : CanonicalTexts w) (hr : Reported enforced current) :
    k ∈ banFilter anyNet (deltaOf w current).add ↔ k ∈ w ∧ k ∉ enforced := by
  rw [mem_banFilter_canonical (canonicalTexts_add hw), mem_add]
  constructor
  · rintro ⟨hk, hno⟩
    refine ⟨hk, ?_⟩
    intro hin
    obtain ⟨r, hmem, hkey⟩ := hr.1.2 k hin
    exact hno r hmem ((reportedKey_eq_iff hw (hr.2 r hmem) hk).mpr hkey)
  · rintro ⟨hk, hout⟩
    refine ⟨hk, ?_⟩
    intro r hmem heq
    obtain ⟨k', hk', hkey⟩ := hr.1.1 r hmem
    rw [(reportedKey_eq_iff hw (hr.2 r hmem) hk).mp heq] at hkey
    rw [Option.some.inj hkey] at hout
    exact hout hk'

theorem mem_delta_remove (hw : CanonicalTexts w) (hr : Reported enforced current) :
    k ∈ canonicalBanList (deltaOf w current).remove ↔ k ∈ enforced ∧ k ∉ w := by
  rw [mem_canonicalBanList]
  constructor
  · rintro ⟨r, hremove, hkey⟩
    obtain ⟨hmem, hnot⟩ := mem_remove.mp hremove
    obtain ⟨k', hk', heq⟩ := hr.1.1 r hmem
    rw [hkey] at heq
    rw [← Option.some.inj heq] at hk'
    refine ⟨hk', ?_⟩
    intro hk
    rw [(reportedKey_eq_iff hw (hr.2 r hmem) hk).mpr hkey] at hnot
    exact hnot hk
  · rintro ⟨hin, hk⟩
    obtain ⟨r, hmem, hkey⟩ := hr.1.2 k hin
    refine ⟨r, mem_remove.mpr ⟨hmem, ?_⟩, hkey⟩
    intro hwanted
    rw [(reportedKey_eq_iff hw (hr.2 r hmem) hwanted).mp rfl] at hkey
    rw [← Option.some.inj hkey] at hk
    exact hk hwanted

theorem deltaOf_agrees (hw : CanonicalTexts w) (hr : Reported enforced current) :
    DeltaAgrees w (deltaOf w current).add (deltaOf w current).remove :=
  ⟨fun _ hk => ((mem_delta_add hw hr).mp hk).1, fun _ hk => ((mem_delta_remove hw hr).mp hk).2⟩

/-- A delta touches the entries that its report has wrong. -/
theorem touches_deltaOf (hw : CanonicalTexts w) (hr : Reported enforced current)
    (hk : ¬ (k ∈ enforced ↔ k ∈ w)) :
    Touches (deltaOf w current).add (deltaOf w current).remove k := by
  rw [Touches, mem_delta_add hw hr, mem_delta_remove hw hr]
  tauto

theorem mem_foldl_agrees {ops : List BanOp} (h : ∀ op ∈ ops, OpAgrees w op) :
    k ∈ ops.foldl applyOp enforced ↔
      if k ∈ ops.map (·.entry) then k ∈ w else k ∈ enforced := by
  induction ops generalizing enforced with
  | nil => simp
  | cons op ops ih =>
    have hop := h op List.mem_cons_self
    rw [List.foldl_cons, ih fun op' hop' => h op' (List.mem_cons_of_mem _ hop'), List.map_cons]
    by_cases hops : k ∈ ops.map (·.entry)
    · simp only [hops, if_true, List.mem_cons, or_true]
    · rw [if_neg hops, applyOp, hop]
      by_cases hk : k = op.entry
      · subst hk
        by_cases hw : op.entry ∈ w <;> simp [hw]
      · by_cases hw : op.entry ∈ w <;> simp [hw, hk, hops]

theorem mem_queueBanDelta_iff {ops : Mailbox} {op : BanOp} {frame : Nat} :
    op ∈ (queueBanDelta ops frame add remove).rows ↔
      (if op.entry ∈ remove then some ⟨op.entry, false, frame⟩
      else if op.entry ∈ add then some ⟨op.entry, true, frame⟩ else ops.find op.entry) = some op := by
  rw [mem_rows_iff, find_queueBanDelta]

theorem agrees_queueBanDelta {ops : Mailbox} {frame : Nat} (h : DeltaAgrees w add remove)
    (hops : ∀ op ∈ ops.rows, OpAgrees w op) :
    ∀ op ∈ (queueBanDelta ops frame (banFilter anyNet add) (canonicalBanList remove)).rows,
      OpAgrees w op := by
  intro op hop
  rw [mem_queueBanDelta_iff] at hop
  split at hop
  · rename_i hremove
    rw [← Option.some.inj hop]
    simp [OpAgrees, h.2 _ hremove]
  · split at hop
    · rename_i hadd
      rw [← Option.some.inj hop]
      simp [OpAgrees, h.1 _ hadd]
    · exact hops op (mem_rows_iff.mpr hop)

theorem entry_queueBanDelta {ops : Mailbox} {frame : Nat}
    (h : Touches add remove k ∨ ∃ op ∈ ops.rows, op.entry = k) :
    ∃ op ∈ (queueBanDelta ops frame (banFilter anyNet add) (canonicalBanList remove)).rows,
      op.entry = k := by
  by_cases hremove : k ∈ canonicalBanList remove
  · exact ⟨⟨k, false, frame⟩, by rw [mem_queueBanDelta_iff]; simp [hremove], rfl⟩
  · by_cases hadd : k ∈ banFilter anyNet add
    · exact ⟨⟨k, true, frame⟩, by rw [mem_queueBanDelta_iff]; simp [hremove, hadd], rfl⟩
    · rcases h with h | ⟨op, hop, rfl⟩
      · exact absurd h (not_or.mpr ⟨hadd, hremove⟩)
      · refine ⟨op, ?_, rfl⟩
        rw [mem_queueBanDelta_iff, if_neg hremove, if_neg hadd]
        exact mem_rows_iff.mp hop

theorem applyDelta_deltaOf (hw : CanonicalTexts w) (hr : Reported enforced current) :
    applyDelta enforced (deltaOf w current) = w.toFinset := by
  have hagrees : ∀ op ∈ takeBanDelta (deltaOps (deltaOf w current)), OpAgrees w op := by
    intro op hop
    refine agrees_queueBanDelta (deltaOf_agrees hw hr) ?_ op (mem_takeBanDelta.mp hop)
    intro op hop
    contradiction
  ext k
  rw [applyDelta, mem_foldl_agrees hagrees, List.mem_toFinset]
  split
  · rfl
  · rename_i hno
    by_contra hwrong
    have hqueued : ∃ op ∈ (deltaOps (deltaOf w current)).rows, op.entry = k :=
      entry_queueBanDelta (.inl (touches_deltaOf hw hr hwrong))
    obtain ⟨op, hop, rfl⟩ := hqueued
    exact hno (List.mem_map_of_mem (mem_takeBanDelta.mpr hop))

theorem deltaOf_wanted (hw : CanonicalTexts w) (hr : Reported w.toFinset current) :
    deltaOf w current = ⟨[], []⟩ := by
  have hadd : (deltaOf w current).add = [] := by
    rw [List.eq_nil_iff_forall_not_mem]
    intro t ht
    have hmem := (mem_delta_add hw hr).mp ((mem_banFilter_canonical (canonicalTexts_add hw)).mpr ht)
    exact hmem.2 (List.mem_toFinset.mpr hmem.1)
  have hremove : (deltaOf w current).remove = [] := by
    rw [List.eq_nil_iff_forall_not_mem]
    intro r hmem
    obtain ⟨k, hin, hkey⟩ := hr.1.1 r (mem_remove.mp hmem).1
    have hk := (mem_delta_remove hw hr).mp (mem_canonicalBanList.mpr ⟨r, hmem, hkey⟩)
    exact hk.2 (List.mem_toFinset.mp hin)
  calc deltaOf w current
      = ⟨(deltaOf w current).add, (deltaOf w current).remove⟩ := rfl
    _ = ⟨[], []⟩ := by rw [hadd, hremove]

end delta

/-! ## The machine -/

/-- What `computeBanDelta` reads for a device. -/
structure BanQuery where
  db : Db
  now : Int
  groupIds : List Nat
  tenantId : Nat

/-- The set the device has to enforce. -/
def BanQuery.wanted (q : BanQuery) (deviceId : Nat) : List String :=
  Server.wanted q.db q.now deviceId q.groupIds q.tenantId (enforcesCidr q.db deviceId none)

/-- `computeBanDelta` as `handlePush` calls it. -/
def BanQuery.delta (q : BanQuery) (deviceId : Nat) (current : List String) : BanDelta :=
  computeBanDelta q.db q.now deviceId q.groupIds q.tenantId current none

theorem BanQuery.delta_eq (q : BanQuery) (deviceId : Nat) (current : List String) :
    q.delta deviceId current = deltaOf (q.wanted deviceId) current := rfl

theorem BanQuery.wanted_canonicalTexts (q : BanQuery) (deviceId : Nat) :
    CanonicalTexts (q.wanted deviceId) := fun _ ht => wanted_canonical ht

/-- What the config worker and the firewall worker do by themselves; the guard refuses nothing and
the backend succeeds. -/
inductive WorkerAction
  | handle
  | queue
  | wake
  | lock
  | apply
  | flush
deriving DecidableEq

def WorkerAction.toFirewall : WorkerAction → FirewallAction
  | .handle => .handle
  | .queue => .queue anyNet
  | .wake => .wake
  | .lock => .lock
  | .apply => .apply none
  | .flush => .flush none

/-- The server, an agent, and the heartbeats and answers between them, each with the number of its
heartbeat. -/
structure SyncState where
  query : BanQuery
  /-- Heartbeats sent so far. -/
  beats : Nat
  reports : List (Nat × List String)
  answers : List (Nat × BanDelta)
  /-- The heartbeats whose answers have been received. -/
  delivered : List Nat
  agent : FirewallState

/-- An agent that just started, over what its firewall holds. -/
def SyncState.init (query : BanQuery) (enforced : Finset String) : SyncState :=
  ⟨query, 0, [], [], [], .init enforced⟩

inductive SyncAction
  /-- The database changes, or time passes. -/
  | database (query : BanQuery)
  /-- The agent reports what its firewall holds. -/
  | heartbeat (current : List String)
  /-- The server answers a report. -/
  | answer (i : Nat)
  /-- The agent receives an answer. -/
  | deliver (i : Nat)
  | loseReport (i : Nat)
  | loseAnswer (i : Nat)
  | agent (a : WorkerAction)

/-- One step; heartbeats and answers overtake each other. -/
def syncStep (deviceId : Nat) (s : SyncState) : SyncAction → Option SyncState
  | .database query => some { s with query := query }
  | .heartbeat current =>
    if Reported s.agent.enforced current then
      some { s with beats := s.beats + 1, reports := s.reports ++ [(s.beats, current)] }
    else none
  | .answer i =>
    s.reports[i]?.map fun r => { s with
      reports := s.reports.eraseIdx i
      answers := s.answers ++ [(r.1, s.query.delta deviceId r.2)] }
  | .deliver i =>
    s.answers[i]?.bind fun d =>
      (firewallStep s.agent (.frame d.2.add d.2.remove)).map fun agent => { s with
        answers := s.answers.eraseIdx i
        delivered := s.delivered ++ [d.1]
        agent := agent }
  | .loseReport i => some { s with reports := s.reports.eraseIdx i }
  | .loseAnswer i => some { s with answers := s.answers.eraseIdx i }
  | .agent a => (firewallStep s.agent a.toFirewall).map fun agent => { s with agent := agent }

/-- The action changes what the server wants. -/
def SyncAction.writes : SyncAction → Bool
  | .database _ => true
  | _ => false

/-- The agent has nothing left to apply. -/
def Drained (a : FirewallState) : Prop :=
  a.config = [] ∧ a.handling = none ∧ a.mailbox.rows = [] ∧ a.worker = .waiting

instance (a : FirewallState) : Decidable (Drained a) := inferInstanceAs (Decidable (_ ∧ _))

/-! ## Every entry is right, or on its way -/

/-- What the worker still has to apply. -/
def todoOf : Worker → List BanOp
  | .waiting => []
  | .holding batch => batch
  | .applying _ todo => todo

/-- Whatever the agent still has to apply asks for what is wanted. -/
structure AgentAgrees (w : List String) (a : FirewallState) : Prop where
  config : ∀ f ∈ a.config, DeltaAgrees w f.add f.remove
  handling : ∀ f ∈ a.handling, DeltaAgrees w f.add f.remove
  mailbox : ∀ op ∈ a.mailbox.rows, OpAgrees w op
  todo : ∀ op ∈ todoOf a.worker, OpAgrees w op

/-- The agent still has to apply an operation on the entry. -/
def StillPending (a : FirewallState) (k : String) : Prop :=
  (∃ f ∈ a.config, Touches f.add f.remove k) ∨ (∃ f ∈ a.handling, Touches f.add f.remove k) ∨
    (∃ op ∈ a.mailbox.rows, op.entry = k) ∨ ∃ op ∈ todoOf a.worker, op.entry = k

/-- The firewall holds the entry as it is wanted, or the agent still has to apply an operation on
it. -/
def OnItsWay (w : List String) (a : FirewallState) (k : String) : Prop :=
  (k ∈ a.enforced ↔ k ∈ w) ∨ StillPending a k

section agent
variable {w : List String} {a a' : FirewallState} {k : String}

theorem Drained.agrees (h : Drained a) : AgentAgrees w a where
  config := by simp [h.1]
  handling := by simp [h.2.1]
  mailbox := by simp [h.2.2.1]
  todo := by simp [h.2.2.2, todoOf]

theorem Drained.not_pending (h : Drained a) : ¬ StillPending a k := by
  obtain ⟨hconfig, hhandling, hmailbox, hworker⟩ := h
  simp [StillPending, hconfig, hhandling, hmailbox, hworker, todoOf]

theorem enforced_of_drained (h : Drained a) (hway : ∀ k, OnItsWay w a k) :
    a.enforced = w.toFinset := by
  ext k
  rw [List.mem_toFinset]
  exact (hway k).resolve_right h.not_pending

theorem agrees_received {add remove : List String} (ha : AgentAgrees w a)
    (hd : DeltaAgrees w add remove) (h : firewallStep a (.frame add remove) = some a') :
    AgentAgrees w a' := by
  cases fires_of_step h
  refine { ha with config := ?_ }
  intro f hf
  rcases List.mem_append.mp hf with hf | hf
  · exact ha.config f hf
  · rw [List.mem_singleton.mp hf]
    exact hd

theorem onItsWay_received {add remove : List String}
    (hk : OnItsWay w a k ∨ Touches add remove k)
    (h : firewallStep a (.frame add remove) = some a') : OnItsWay w a' k := by
  cases fires_of_step h
  rcases hk with (hright | ⟨f, hf, ht⟩ | hrest) | ht
  · exact .inl hright
  · exact .inr (.inl ⟨f, List.mem_append_left _ hf, ht⟩)
  · exact .inr (.inr hrest)
  · exact .inr (.inl ⟨_, List.mem_append_right _ (List.mem_singleton_self _), ht⟩)

theorem agrees_worker {b : WorkerAction} (ha : AgentAgrees w a)
    (h : firewallStep a b.toFirewall = some a') : AgentAgrees w a' := by
  have hfires := fires_of_step h
  cases b with
  | handle =>
    cases hfires with
    | handle hconfig hhandling =>
      refine { ha with config := ?_, handling := ?_ }
      · intro f hf
        exact ha.config f (hconfig ▸ List.mem_cons_of_mem _ hf)
      · intro f hf
        cases hf
        exact ha.config _ (hconfig ▸ List.mem_cons_self)
  | queue =>
    cases hfires with
    | dropped safe hhandling hadd hremove => exact { ha with handling := by simp }
    | queued safe hhandling =>
      refine { ha with handling := by simp, mailbox := ?_ }
      exact agrees_queueBanDelta (ha.handling _ hhandling) ha.mailbox
  | wake =>
    cases hfires with
    | nothing hworker hempty =>
      exact { ha with mailbox := by simp [Keyed.empty], todo := by simp [todoOf] }
    | took hworker hbatch =>
      refine { ha with mailbox := by simp [Keyed.empty], todo := ?_ }
      intro op hop
      exact ha.mailbox op (mem_takeBanDelta.mp hop)
  | lock =>
    cases hfires with
    | lock hworker hfree =>
      have htodo := ha.todo
      rw [hworker] at htodo
      exact { ha with todo := htodo }
  | apply =>
    cases hfires with
    | apply failed hworker =>
      have htodo := ha.todo
      rw [hworker] at htodo
      exact { ha with todo := fun op hop => htodo op (List.mem_cons_of_mem _ hop) }
  | flush =>
    cases hfires with
    | flush failed hworker => exact { ha with todo := by simp [todoOf] }

theorem mem_applyOp_agrees {op : BanOp} {enforced : Finset String} (h : OpAgrees w op) :
    k ∈ applyOp enforced op ↔ if op.entry = k then k ∈ w else k ∈ enforced := by
  have hfold : k ∈ [op].foldl applyOp enforced ↔
      if k ∈ [op].map (·.entry) then k ∈ w else k ∈ enforced :=
    mem_foldl_agrees (by simpa using h)
  simpa [eq_comm] using hfold

theorem onItsWay_worker {b : WorkerAction} (ha : AgentAgrees w a) (hk : OnItsWay w a k)
    (h : firewallStep a b.toFirewall = some a') : OnItsWay w a' k := by
  have hfires := fires_of_step h
  rcases hk with hright | hpending
  · cases b with
    | apply =>
      cases hfires with
      | apply failed hworker =>
        have htodo := ha.todo
        rw [hworker] at htodo
        left
        rw [Option.getD_none, mem_applyOp_agrees (htodo _ List.mem_cons_self)]
        split
        · rfl
        · exact hright
    | _ =>
      cases hfires
      all_goals exact .inl hright
  · cases b with
    | handle =>
      cases hfires with
      | handle hconfig hhandling =>
        right
        rcases hpending with ⟨f, hf, ht⟩ | ⟨f, hf, -⟩ | hrest
        · rw [hconfig] at hf
          rcases List.mem_cons.mp hf with rfl | hf
          · exact .inr (.inl ⟨f, rfl, ht⟩)
          · exact .inl ⟨f, hf, ht⟩
        · rw [hhandling] at hf
          contradiction
        · exact .inr (.inr hrest)
    | queue =>
      cases hfires with
      | dropped safe hhandling hadd hremove =>
        right
        rcases hpending with hconfig | ⟨f, hf, ht⟩ | hrest
        · exact .inl hconfig
        · rw [hhandling] at hf
          cases hf
          rw [Touches, hadd, hremove] at ht
          simp at ht
        · exact .inr (.inr hrest)
      | queued safe hhandling =>
        right
        rcases hpending with hconfig | ⟨f, hf, ht⟩ | hmailbox | htodo
        · exact .inl hconfig
        · rw [hhandling] at hf
          cases hf
          exact .inr (.inr (.inl (entry_queueBanDelta (.inl ht))))
        · exact .inr (.inr (.inl (entry_queueBanDelta (.inr hmailbox))))
        · exact .inr (.inr (.inr htodo))
    | wake =>
      cases hfires with
      | nothing hworker hempty =>
        right
        rcases hpending with hconfig | hhandling | ⟨op, hop, -⟩ | ⟨op, hop, -⟩
        · exact .inl hconfig
        · exact .inr (.inl hhandling)
        · rw [← mem_takeBanDelta, hempty] at hop
          contradiction
        · rw [hworker] at hop
          contradiction
      | took hworker hbatch =>
        right
        rcases hpending with hconfig | hhandling | ⟨op, hop, heq⟩ | ⟨op, hop, -⟩
        · exact .inl hconfig
        · exact .inr (.inl hhandling)
        · exact .inr (.inr (.inr ⟨op, mem_takeBanDelta.mpr hop, heq⟩))
        · rw [hworker] at hop
          contradiction
    | lock =>
      cases hfires with
      | lock hworker hfree =>
        rw [StillPending, hworker] at hpending
        exact .inr hpending
    | apply =>
      cases hfires with
      | apply failed hworker =>
        have htodo := ha.todo
        rw [hworker] at htodo
        rcases hpending with hconfig | hhandling | hmailbox | ⟨op, hop, heq⟩
        · exact .inr (.inl hconfig)
        · exact .inr (.inr (.inl hhandling))
        · exact .inr (.inr (.inr (.inl hmailbox)))
        · rw [hworker] at hop
          rcases List.mem_cons.mp hop with rfl | hop
          · left
            rw [Option.getD_none, mem_applyOp_agrees (htodo _ List.mem_cons_self), if_pos heq]
          · exact .inr (.inr (.inr (.inr ⟨op, hop, heq⟩)))
    | flush =>
      cases hfires with
      | flush failed hworker =>
        right
        rcases hpending with hconfig | hhandling | hmailbox | ⟨op, hop, -⟩
        · exact .inl hconfig
        · exact .inr (.inl hhandling)
        · exact .inr (.inr (.inl hmailbox))
        · rw [hworker] at hop
          contradiction

end agent

/-! ## Every run -/

/-- The heartbeats in flight and those answered have been sent, and a report is of a set that the
firewall held; no resync is going on. -/
structure SyncWf (s : SyncState) : Prop where
  reports : ∀ r ∈ s.reports, r.1 < s.beats ∧ ∃ enforced, Reported enforced r.2
  answers : ∀ d ∈ s.answers, d.1 < s.beats
  delivered : ∀ n ∈ s.delivered, n < s.beats
  resync : s.agent.resync = .idle

/-- From the moment since which the database has not changed and no earlier answer is pending: what
is in flight asks for what is wanted, and a heartbeat sent since finds each entry on its way, or has
it wrong in its report, or in its answer. -/
structure Settling (w : List String) (since : Nat) (s : SyncState) : Prop where
  answers : ∀ d ∈ s.answers, DeltaAgrees w d.2.add d.2.remove
  agent : AgentAgrees w s.agent
  reported : ∀ r ∈ s.reports, ∃ enforced, Reported enforced r.2 ∧
    (since ≤ r.1 → ∀ k, OnItsWay w s.agent k ∨ ¬ (k ∈ enforced ↔ k ∈ w))
  answered : ∀ d ∈ s.answers, since ≤ d.1 →
    ∀ k, OnItsWay w s.agent k ∨ Touches d.2.add d.2.remove k
  delivered : ∀ n ∈ s.delivered, since ≤ n → ∀ k, OnItsWay w s.agent k

section runs
variable {deviceId : Nat} {s s' : SyncState} {a : SyncAction} {w : List String} {since : Nat}

theorem firewallStep_resync {b : WorkerAction} {f f' : FirewallState}
    (h : firewallStep f b.toFirewall = some f') : f'.resync = f.resync := by
  have hfires := fires_of_step h
  cases b
  all_goals
    cases hfires
    all_goals rfl

theorem step_syncWf (hs : SyncWf s) (h : syncStep deviceId s a = some s') : SyncWf s' := by
  cases a with
  | database query =>
    cases h
    exact { hs with }
  | heartbeat current =>
    simp only [syncStep] at h
    split at h
    · rename_i hreported
      cases h
      refine ⟨?_, ?_, ?_, hs.resync⟩
      · intro r hr
        rcases List.mem_append.mp hr with hr | hr
        · exact ⟨Nat.lt_succ_of_lt (hs.reports r hr).1, (hs.reports r hr).2⟩
        · rw [List.mem_singleton.mp hr]
          exact ⟨Nat.lt_succ_self _, _, hreported⟩
      · exact fun d hd => Nat.lt_succ_of_lt (hs.answers d hd)
      · exact fun n hn => Nat.lt_succ_of_lt (hs.delivered n hn)
    · contradiction
  | answer i =>
    obtain ⟨r, hr, rfl⟩ := Option.map_eq_some_iff.mp h
    refine { hs with reports := ?_, answers := ?_ }
    · exact fun r hr => hs.reports r (List.mem_of_mem_eraseIdx hr)
    · intro d hd
      rcases List.mem_append.mp hd with hd | hd
      · exact hs.answers d hd
      · rw [List.mem_singleton.mp hd]
        exact (hs.reports r (List.mem_of_getElem? hr)).1
  | deliver i =>
    obtain ⟨d, hd, h⟩ := Option.bind_eq_some_iff.mp h
    obtain ⟨agent, hagent, rfl⟩ := Option.map_eq_some_iff.mp h
    refine { hs with answers := ?_, delivered := ?_, resync := ?_ }
    · exact fun d hd => hs.answers d (List.mem_of_mem_eraseIdx hd)
    · intro n hn
      rcases List.mem_append.mp hn with hn | hn
      · exact hs.delivered n hn
      · rw [List.mem_singleton.mp hn]
        exact hs.answers d (List.mem_of_getElem? hd)
    · cases fires_of_step hagent
      exact hs.resync
  | loseReport i =>
    cases h
    exact { hs with reports := fun r hr => hs.reports r (List.mem_of_mem_eraseIdx hr) }
  | loseAnswer i =>
    cases h
    exact { hs with answers := fun d hd => hs.answers d (List.mem_of_mem_eraseIdx hd) }
  | agent b =>
    obtain ⟨agent, hagent, rfl⟩ := Option.map_eq_some_iff.mp h
    exact { hs with resync := (firewallStep_resync hagent).trans hs.resync }

theorem syncWf_init (query : BanQuery) (enforced : Finset String) :
    SyncWf (.init query enforced) := by
  refine ⟨?_, ?_, ?_, rfl⟩ <;> simp [SyncState.init]

theorem settling_of_drained (hs : SyncWf s) (hanswers : s.answers = []) (hagent : Drained s.agent) :
    Settling w s.beats s := by
  refine ⟨?_, hagent.agrees, ?_, ?_, ?_⟩
  · simp [hanswers]
  · intro r hr
    obtain ⟨hlt, enforced, hreported⟩ := hs.reports r hr
    exact ⟨enforced, hreported, fun hle => absurd hlt (by omega)⟩
  · simp [hanswers]
  · intro n hn hle
    exact absurd (hs.delivered n hn) (by omega)

/-- What the agent does with its entries on their way keeps the settling. -/
theorem Settling.of_agent {agent : FirewallState} (hs : Settling w since s)
    (hagrees : AgentAgrees w agent) (hway : ∀ k, OnItsWay w s.agent k → OnItsWay w agent k) :
    Settling w since { s with agent := agent } where
  answers := hs.answers
  agent := hagrees
  reported := by
    intro r hr
    obtain ⟨enforced, hreported, hk⟩ := hs.reported r hr
    exact ⟨enforced, hreported, fun hle k => (hk hle k).imp_left (hway k)⟩
  answered := fun d hd hle k => (hs.answered d hd hle k).imp_left (hway k)
  delivered := fun n hn hle k => hway k (hs.delivered n hn hle k)

theorem step_settling (hs : Settling w since s) (hw : s.query.wanted deviceId = w)
    (ha : a.writes = false) (h : syncStep deviceId s a = some s') : Settling w since s' := by
  have hcanonical : CanonicalTexts w := hw ▸ s.query.wanted_canonicalTexts deviceId
  cases a with
  | database query => contradiction
  | heartbeat current =>
    simp only [syncStep] at h
    split at h
    · rename_i hreported
      cases h
      refine { hs with reported := ?_ }
      intro r hr
      rcases List.mem_append.mp hr with hr | hr
      · exact hs.reported r hr
      · rw [List.mem_singleton.mp hr]
        refine ⟨_, hreported, ?_⟩
        intro _ k
        exact (em (k ∈ s.agent.enforced ↔ k ∈ w)).imp_left .inl
    · contradiction
  | answer i =>
    obtain ⟨r, hr, rfl⟩ := Option.map_eq_some_iff.mp h
    obtain ⟨enforced, hreported, hk⟩ := hs.reported r (List.mem_of_getElem? hr)
    have hdelta : s.query.delta deviceId r.2 = deltaOf w r.2 := by rw [BanQuery.delta_eq, hw]
    refine { hs with answers := ?_, reported := ?_, answered := ?_ }
    · intro d hd
      rcases List.mem_append.mp hd with hd | hd
      · exact hs.answers d hd
      · rw [List.mem_singleton.mp hd, hdelta]
        exact deltaOf_agrees hcanonical hreported
    · exact fun r hr => hs.reported r (List.mem_of_mem_eraseIdx hr)
    · intro d hd hle k
      rcases List.mem_append.mp hd with hd | hd
      · exact hs.answered d hd hle k
      · rw [List.mem_singleton.mp hd] at hle ⊢
        rw [hdelta]
        exact (hk hle k).imp_right (touches_deltaOf hcanonical hreported)
  | deliver i =>
    obtain ⟨d, hd, h⟩ := Option.bind_eq_some_iff.mp h
    obtain ⟨agent, hagent, rfl⟩ := Option.map_eq_some_iff.mp h
    have hmem := List.mem_of_getElem? hd
    have hagrees := agrees_received hs.agent (hs.answers d hmem) hagent
    have hs' := hs.of_agent hagrees fun k hk => onItsWay_received (.inl hk) hagent
    refine { hs' with answers := ?_, answered := ?_, delivered := ?_ }
    · exact fun d hd => hs.answers d (List.mem_of_mem_eraseIdx hd)
    · exact fun d hd => hs'.answered d (List.mem_of_mem_eraseIdx hd)
    · intro n hn hle k
      rcases List.mem_append.mp hn with hn | hn
      · exact hs'.delivered n hn hle k
      · rw [List.mem_singleton.mp hn] at hle
        exact onItsWay_received (hs.answered d hmem hle k) hagent
  | loseReport i =>
    cases h
    exact { hs with reported := fun r hr => hs.reported r (List.mem_of_mem_eraseIdx hr) }
  | loseAnswer i =>
    cases h
    exact { hs with
      answers := fun d hd => hs.answers d (List.mem_of_mem_eraseIdx hd)
      answered := fun d hd => hs.answered d (List.mem_of_mem_eraseIdx hd) }
  | agent b =>
    obtain ⟨agent, hagent, rfl⟩ := Option.map_eq_some_iff.mp h
    exact hs.of_agent (agrees_worker hs.agent hagent) fun k hk => onItsWay_worker hs.agent hk hagent

theorem step_query (ha : a.writes = false) (h : syncStep deviceId s a = some s') :
    s'.query = s.query := by
  cases a with
  | database query => contradiction
  | heartbeat current =>
    simp only [syncStep] at h
    split at h
    · cases h
      rfl
    · contradiction
  | answer i =>
    obtain ⟨r, -, rfl⟩ := Option.map_eq_some_iff.mp h
    rfl
  | deliver i =>
    obtain ⟨d, -, h⟩ := Option.bind_eq_some_iff.mp h
    obtain ⟨agent, -, rfl⟩ := Option.map_eq_some_iff.mp h
    rfl
  | loseReport i =>
    cases h
    rfl
  | loseAnswer i =>
    cases h
    rfl
  | agent b =>
    obtain ⟨agent, -, rfl⟩ := Option.map_eq_some_iff.mp h
    rfl

theorem run_settling {bs : List SyncAction} (hs : Settling (s.query.wanted deviceId) since s)
    (hbs : ∀ b ∈ bs, b.writes = false) (h : run (syncStep deviceId) s bs = some s') :
    Settling (s.query.wanted deviceId) since s' := by
  have hmeet : StepsMeet (syncStep deviceId) (fun _ b => b.writes = false) s bs :=
    stepsMeet_of_mem fun b hb _ => hbs b hb
  refine (run_invariant
    (P := fun t => t.query = s.query ∧ Settling (s.query.wanted deviceId) since t)
    ?_ ⟨rfl, hs⟩ hmeet h).2
  rintro t b t' ⟨hquery, ht⟩ hb hstep
  exact ⟨(step_query hb hstep).trans hquery,
    step_settling ht (congrArg (BanQuery.wanted · deviceId) hquery) hb hstep⟩

end runs

/-! ## A round runs to its end -/

/-- The workers of the agent alone. -/
def workerStep (f : FirewallState) (b : WorkerAction) : Option FirewallState :=
  firewallStep f b.toFirewall

/-- The workers have a run that leaves nothing to apply. -/
def Drains (f : FirewallState) : Prop := ∃ bs f', run workerStep f bs = some f' ∧ Drained f'

section round
variable {f f' : FirewallState}

theorem Drains.step {b : WorkerAction} (h : workerStep f b = some f') (hf' : Drains f') :
    Drains f := by
  obtain ⟨bs, f'', hrun, hdrained⟩ := hf'
  exact ⟨b :: bs, f'', run_cons.mpr ⟨f', h, hrun⟩, hdrained⟩

theorem Drained.drains (h : Drained f) : Drains f := ⟨[], f, rfl, h⟩

theorem drains_of_applying {batch todo : List BanOp} (hconfig : f.config = [])
    (hhandling : f.handling = none) (hmailbox : f.mailbox.rows = [])
    (hworker : f.worker = .applying batch todo) : Drains f := by
  induction todo generalizing f with
  | nil =>
    have hstep : workerStep f .flush = some { f with worker := .waiting } := by
      simp [workerStep, WorkerAction.toFirewall, firewallStep, hworker]
    exact Drains.step hstep (Drained.drains ⟨hconfig, hhandling, hmailbox, rfl⟩)
  | cons op todo ih =>
    have hstep : workerStep f .apply = some { f with
        worker := .applying batch todo
        enforced := applyOp f.enforced op
        log := f.log ++ [op] } := by
      simp [workerStep, WorkerAction.toFirewall, firewallStep, hworker]
    exact Drains.step hstep (ih hconfig hhandling hmailbox rfl)

theorem drains_of_mailbox (hconfig : f.config = []) (hhandling : f.handling = none)
    (hworker : f.worker = .waiting) (hsignal : f.signal = true) (hresync : f.resync = .idle) :
    Drains f := by
  have hwake : workerStep f .wake = some { f with
      signal := false
      mailbox := .empty
      worker := if takeBanDelta f.mailbox = [] then .waiting
        else .holding (takeBanDelta f.mailbox) } := by
    simp [workerStep, WorkerAction.toFirewall, firewallStep, hworker, hsignal]
  apply Drains.step hwake
  by_cases hbatch : takeBanDelta f.mailbox = []
  · rw [if_pos hbatch]
    exact Drained.drains ⟨hconfig, hhandling, rfl, rfl⟩
  · rw [if_neg hbatch]
    have hlock : workerStep { f with
          signal := false
          mailbox := .empty
          worker := .holding (takeBanDelta f.mailbox) } .lock = some { f with
          signal := false
          mailbox := .empty
          worker := .applying (takeBanDelta f.mailbox) (takeBanDelta f.mailbox) } := by
      simp [workerStep, WorkerAction.toFirewall, firewallStep, FirewallState.unlocked, hresync,
        Worker.locks, ResyncPhase.locks]
    exact Drains.step hlock (drains_of_applying hconfig hhandling rfl rfl)

theorem drains_of_frame {add remove : List String} (hf : Drained f) (hresync : f.resync = .idle) :
    ∃ f', firewallStep f (.frame add remove) = some f' ∧ Drains f' := by
  obtain ⟨hconfig, hhandling, hmailbox, hworker⟩ := hf
  refine ⟨{ f with frames := f.frames + 1, config := [⟨f.frames, add, remove⟩] }, ?_, ?_⟩
  · simp [firewallStep, hconfig, cmdWSConfigQueueSize]
  have hhandle : workerStep { f with frames := f.frames + 1, config := [⟨f.frames, add, remove⟩] }
      .handle = some { f with
        frames := f.frames + 1, config := [], handling := some ⟨f.frames, add, remove⟩ } := by
    simp [workerStep, WorkerAction.toFirewall, firewallStep, hhandling]
  apply Drains.step hhandle
  by_cases hempty : banFilter anyNet add = [] ∧ canonicalBanList remove = []
  · have hdropped : workerStep { f with
        frames := f.frames + 1, config := [], handling := some ⟨f.frames, add, remove⟩ } .queue =
        some { f with frames := f.frames + 1, config := [], handling := none } := by
      simp [workerStep, WorkerAction.toFirewall, firewallStep, hempty]
    exact Drains.step hdropped (Drained.drains ⟨rfl, rfl, hmailbox, hworker⟩)
  · have hqueued : workerStep { f with
        frames := f.frames + 1, config := [], handling := some ⟨f.frames, add, remove⟩ } .queue =
        some { f with
          frames := f.frames + 1
          config := []
          handling := none
          mailbox := queueBanDelta f.mailbox f.frames (banFilter anyNet add)
            (canonicalBanList remove)
          signal := true } := by
      simp [workerStep, WorkerAction.toFirewall, firewallStep, hempty]
    exact Drains.step hqueued (drains_of_mailbox rfl rfl hworker rfl hresync)

theorem run_agent {deviceId : Nat} {bs : List WorkerAction} {s : SyncState}
    (h : run workerStep s.agent bs = some f') :
    run (syncStep deviceId) s (bs.map .agent) = some { s with agent := f' } := by
  induction bs generalizing s with
  | nil =>
    cases h
    rfl
  | cons b bs ih =>
    obtain ⟨t, ht, h⟩ := run_cons.mp h
    rw [List.map_cons, run_cons]
    refine ⟨{ s with agent := t }, ?_, ih h⟩
    rw [syncStep, show firewallStep s.agent b.toFirewall = some t from ht]
    rfl

/-- From a state with no answer in flight and nothing left to apply, a heartbeat round runs to its
end. -/
theorem exists_round (deviceId : Nat) {s : SyncState} {current : List String} (hs : SyncWf s)
    (hanswers : s.answers = []) (hagent : Drained s.agent)
    (hcurrent : Reported s.agent.enforced current) :
    ∃ bs s', run (syncStep deviceId) s (.heartbeat current :: bs) = some s' ∧
      (∀ b ∈ bs, b.writes = false) ∧ s.beats ∈ s'.delivered ∧ Drained s'.agent := by
  have hframes : ∃ f, firewallStep s.agent (.frame (s.query.delta deviceId current).add
      (s.query.delta deviceId current).remove) = some f ∧ Drains f :=
    drains_of_frame hagent hs.resync
  obtain ⟨f, hframe, ws, f', hws, hdrained⟩ := hframes
  refine ⟨.answer s.reports.length :: .deliver 0 :: ws.map .agent, { s with
    beats := s.beats + 1
    delivered := s.delivered ++ [s.beats]
    agent := f' }, ?_, ?_, by simp, hdrained⟩
  · rw [run_cons]
    refine ⟨{ s with beats := s.beats + 1, reports := s.reports ++ [(s.beats, current)] }, ?_, ?_⟩
    · rw [syncStep, if_pos hcurrent]
    rw [run_cons]
    refine ⟨{ s with
      beats := s.beats + 1, answers := [(s.beats, s.query.delta deviceId current)] }, ?_, ?_⟩
    · simp [syncStep, hanswers, List.eraseIdx_append_of_length_le]
    rw [run_cons]
    refine ⟨{ s with
      beats := s.beats + 1, delivered := s.delivered ++ [s.beats], agent := f }, ?_, ?_⟩
    · simp [syncStep, hframe, hanswers]
    exact run_agent (s := { s with
      beats := s.beats + 1, delivered := s.delivered ++ [s.beats], agent := f }) hws
  · intro b hb
    simp only [List.mem_cons, List.mem_map] at hb
    rcases hb with rfl | rfl | ⟨w, -, rfl⟩ <;> rfl

end round

/-! ## Convergence -/

/-- One delta makes the enforced set the wanted one, after which the delta is empty; and whatever
heartbeats and answers there were, once the database stops changing, no answer is under way any more
and the agent has applied what it received, a heartbeat round runs to its end and makes the enforced
set the wanted one. -/
theorem ban_delta_converges (deviceId : Nat) :
    (∀ (q : BanQuery) (enforced : Finset String) (current : List String),
      Reported enforced current →
        applyDelta enforced (q.delta deviceId current) = (q.wanted deviceId).toFinset ∧
        ∀ again, Reported (q.wanted deviceId).toFinset again →
          q.delta deviceId again = ⟨[], []⟩) ∧
    ∀ (q : BanQuery) (enforced : Finset String) (as : List SyncAction) (s : SyncState),
      run (syncStep deviceId) (.init q enforced) as = some s → s.answers = [] → Drained s.agent →
        (∀ current, Reported s.agent.enforced current → ∃ bs s',
          run (syncStep deviceId) s (.heartbeat current :: bs) = some s' ∧
            (∀ b ∈ bs, b.writes = false) ∧ s.beats ∈ s'.delivered ∧ Drained s'.agent) ∧
        ∀ (bs : List SyncAction) (s' : SyncState) (n : Nat), (∀ b ∈ bs, b.writes = false) →
          run (syncStep deviceId) s bs = some s' → s.beats ≤ n → n ∈ s'.delivered →
            Drained s'.agent → s'.agent.enforced = (s.query.wanted deviceId).toFinset := by
  refine ⟨?_, ?_⟩
  · intro q enforced current hcurrent
    have hw := q.wanted_canonicalTexts deviceId
    exact ⟨applyDelta_deltaOf hw hcurrent, fun again hagain => deltaOf_wanted hw hagain⟩
  · intro q enforced as s has hanswers hagent
    have hwf : SyncWf s :=
      run_preserves (fun _ _ _ ht hstep => step_syncWf ht hstep) (syncWf_init q enforced) has
    refine ⟨fun current hcurrent => exists_round deviceId hwf hanswers hagent hcurrent, ?_⟩
    intro bs s' n hbs hrun hn hdelivered hdrained
    have hs' := run_settling (settling_of_drained hwf hanswers hagent) hbs hrun
    exact enforced_of_drained hdrained (hs'.delivered n hdelivered hn)

/-- A ban that ends at 100 and one of a subnet, and device 7 that enforces subnets. -/
def endingBanDb : Db := { Db.empty with
  bans := ⟨[{
    id := 1, target := Stored.ofNet sampleHost,
    reason := none, banType := .auto, scope := .global, scopeId := none, tenantId := none,
    originTenantId := some 2, originApp := none, originRef := none, bannedByUserId := none,
    expiresAt := some 100, isActive := true, liftedAt := none, liftReason := none }, {
    id := 2, target := Stored.ofNet ⟨.v4, 0xc0000200, 24, by decide, sampleSubnet.len_le, by decide⟩,
    reason := none, banType := .manual, scope := .tenant, scopeId := none, tenantId := some 2,
    originTenantId := some 2, originApp := none, originRef := none, bannedByUserId := none,
    expiresAt := none, isActive := true, liftedAt := none, liftReason := none }],
    3, by decide, by decide, by decide⟩
  devices := subnetDevices }

/-- The delta of the first heartbeat still wants the ban that then ends; the second heartbeat is
still under way when it is applied. -/
def staleHeartbeats : List SyncAction :=
  [.heartbeat ["198.51.100.7"], .answer 0, .heartbeat ["::FFFF:198.51.100.7"],
    .database ⟨endingBanDb, 200, [], 2⟩, .deliver 0, .agent .handle, .agent .queue, .agent .wake,
    .agent .lock, .agent .apply, .agent .flush]

/-- A third heartbeat, answered before the second; both deltas meet in the mailbox. -/
def furtherRound : List SyncAction :=
  [.heartbeat ["192.0.2.0/24", "198.51.100.7"], .answer 1, .answer 0, .deliver 0, .agent .handle,
    .agent .queue, .deliver 0, .agent .handle, .agent .queue, .agent .wake, .agent .lock,
    .agent .apply, .agent .apply, .agent .flush]

theorem ban_delta_converges_stale :
    applyDelta {"198.51.100.7"} ((⟨endingBanDb, 200, [], 2⟩ : BanQuery).delta 7 ["198.51.100.7 "]) =
        {"192.0.2.0/24"} ∧
      ∃ s s', run (syncStep 7) (.init ⟨endingBanDb, 0, [], 2⟩ {"198.51.100.7"}) staleHeartbeats =
          some s ∧ s.agent.enforced = {"198.51.100.7", "192.0.2.0/24"} ∧
        run (syncStep 7) s furtherRound = some s' ∧ s'.agent.enforced = {"192.0.2.0/24"} := by
  obtain ⟨hone, hruns⟩ := ban_delta_converges 7
  have hwanted : (⟨endingBanDb, 200, [], 2⟩ : BanQuery).wanted 7 = ["192.0.2.0/24"] := by
    decide
  let start : SyncState := .init ⟨endingBanDb, 0, [], 2⟩ {"198.51.100.7"}
  obtain ⟨s, hs⟩ : ∃ s, run (syncStep 7) start staleHeartbeats = some s :=
    Option.isSome_iff_exists.mp (by decide)
  obtain ⟨s', hs'⟩ : ∃ s', run (syncStep 7) start (staleHeartbeats ++ furtherRound) = some s' :=
    Option.isSome_iff_exists.mp (by decide)
  have hround : run (syncStep 7) s furtherRound = some s' := by
    obtain ⟨t, ht, h⟩ := run_append.mp hs'
    rw [hs, Option.some.injEq] at ht
    rwa [ht]
  have hanswers : (run (syncStep 7) start staleHeartbeats).map (·.answers.length) = some 0 := by
    decide
  have hdrained : (run (syncStep 7) start staleHeartbeats).map (fun s => decide (Drained s.agent)) =
      some true := by decide
  have henforced : (run (syncStep 7) start staleHeartbeats).map (·.agent.enforced) =
      some {"198.51.100.7", "192.0.2.0/24"} := by decide
  have hbeats : (run (syncStep 7) start staleHeartbeats).map (fun s => (s.beats, s.query.now)) =
      some (2, 200) := by decide
  have hwant : (run (syncStep 7) start staleHeartbeats).map (·.query.wanted 7) =
      some ["192.0.2.0/24"] := by decide
  have hdelivered : (run (syncStep 7) start (staleHeartbeats ++ furtherRound)).map (·.delivered) =
      some [0, 2, 1] := by decide
  have hend : (run (syncStep 7) start (staleHeartbeats ++ furtherRound)).map
      (fun s => decide (Drained s.agent)) = some true := by decide
  rw [hs, Option.map_some, Option.some.injEq] at hanswers hdrained henforced hbeats hwant
  rw [hs', Option.map_some, Option.some.injEq] at hdelivered hend
  refine ⟨?_, s, s', hs, henforced, hround, ?_⟩
  · rw [(hone ⟨endingBanDb, 200, [], 2⟩ {"198.51.100.7"} ["198.51.100.7 "] (by decide)).1,
      hwanted]
    rfl
  · have hset := (hruns _ _ staleHeartbeats s hs (List.length_eq_zero_iff.mp hanswers)
      (of_decide_eq_true hdrained)).2 furtherRound s' 2 (by simp [furtherRound, SyncAction.writes])
      hround (by rw [(Prod.mk.inj hbeats).1]) (by simp [hdelivered]) (of_decide_eq_true hend)
    rw [hset, hwant]
    rfl

end Obliguard.Server

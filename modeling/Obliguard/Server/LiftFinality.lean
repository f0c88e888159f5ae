import Obliguard.Server.System

/-!
# Lifts are not undone

After an operator lifts a global ban, two parts of the server could bring it back: the BanEngine,
from the failures that caused the ban, and the blocklist service, from the entry of a list.

The engine counts failures later than the latest deactivation only, but matches the column `ip` of
the deactivated rows with the stored address of the failure. `autoBan_justified` says that this is
enough for the address that the lifted row stores; the other addresses of a lifted subnet, and
failures stored in the IPv4-mapped form, have no watermark (`autoBan_unjustified`).

A Lift disables the entry of the list that the lifted row came from. `remoteBan_not_recreated` says
that this is enough while no other list has an enabled entry for the target and no sync stores a new
one; `remoteBan_recreated` is a run with a second list.
-/

namespace Obliguard.Server

open Bans Runs IpValidation Text

/-! ## Evidence -/

/-- The network of one address. -/
def hostNet (a : Addr) : Net := Net.ofHost a.family a.value a.value_lt

/-- The address of an event as the ban-safety check reads it: an IPv4-mapped one is folded. -/
def IpEvent.address (ev : IpEvent) : Option Net :=
  targetOf ev.ip.host ev.ip.masklen ev.ip.masklen_le

/-- A failure of the address in the window of a template, later than `after`. -/
def isEvidence (now : Int) (deviceId : Nat) (cfg : Template) (n : Net) (after : Int) (ev : IpEvent) :
    Bool :=
  ev.deviceId == deviceId && ev.service == cfg.serviceType && ev.eventType == .authFailure &&
    !ev.trackOnly && decide (now - cfg.windowSeconds * 1000 ≤ ev.timestamp) &&
    decide (ev.address = some n) && decide (after < ev.timestamp)

/-- For some device and template of the cycle, the failures later than `after` reach the
threshold. -/
def Justified (db : Db) (now : Int) (plan : List (Nat × List Template)) (n : Net) (after : Int) :
    Prop :=
  ∃ p ∈ plan, ∃ cfg ∈ p.2,
    cfg.threshold ≤ (db.events.filter (isEvidence now p.1 cfg n after)).length

/-- The cycle creates an auto-ban of the network. -/
def CreatesAutoBan (c : EngineCycle) (now : Int) (db : Db) (n : Net) : Prop :=
  ∃ r ∈ (c.run now db).bans.rows, db.bans.seq ≤ r.id ∧ r.net = n

instance (c : EngineCycle) (now : Int) (db : Db) (n : Net) : Decidable (CreatesAutoBan c now db n) :=
  inferInstanceAs (Decidable (∃ r ∈ _, _))

/-- The event is no event of the address `a`, or is stored under `a` itself. -/
def StoredPlainly (a : Addr) (ev : IpEvent) : Prop :=
  ev.address = some (hostNet a) → ev.ip = Inet.ofAddr a

instance (a : Addr) (ev : IpEvent) : Decidable (StoredPlainly a ev) :=
  inferInstanceAs (Decidable (_ → _))

/-- The condition on the intake: no event spells `a` as an IPv4-mapped address that
`normalizeEventIp` leaves as it is. -/
def PlainIntake (a : Addr) : SystemAction → Prop
  | .ingest b => ∀ p ∈ incomingEvents b, ∀ x ∈ parseAddr p.1,
      targetOf x x.family.bits x.full_mask = some (hostNet a) → x = a
  | _ => True

section evidence
variable {env : SafetyEnv} {s s' : ListState} {a : Addr}

theorem netOfText_text_inet (i : Inet) :
    netOfText (String.ofList i.text) = targetOf i.host i.masklen i.masklen_le := by
  have hchars : ∀ c ∈ i.text, IsTargetChar c := by
    intro c hc
    unfold Inet.text at hc
    split at hc
    · exact Inet.isTargetChar_addrText i.host c hc
    · rcases List.mem_append.mp hc with hc | hc
      · exact Inet.isTargetChar_addrText i.host c hc
      · rcases List.mem_cons.mp hc with rfl | hc
        · exact Or.inl rfl
        · exact Inet.isTargetChar_toDigits _ c hc
  rw [netOfText, String.toList_ofList, jsTrim_targetChars hchars, Inet.readTarget_text]

theorem storedPlainly_eventRow {b : EventBatch} {now : Int} {p : List Char × AgentIpEvent}
    {ev : IpEvent} (hp : ∀ x ∈ parseAddr p.1, targetOf x x.family.bits le_rfl = some (hostNet a) → x = a)
    (h : eventRow b now p.1 p.2 = some ev) : StoredPlainly a ev := by
  obtain ⟨-, x, hx, rfl⟩ := eventRow_eq_some.mp h
  intro haddr
  exact congrArg Inet.ofAddr (hp x hx haddr)

theorem step_storedPlainly {act : SystemAction} (hok : PlainIntake a act)
    (hs : ∀ ev ∈ s.db.events, StoredPlainly a ev) (h : systemStep env s act = some s') :
    ∀ ev ∈ s'.db.events, StoredPlainly a ev := by
  cases act with
  | request i =>
    simp only [systemStep] at h
    split at h
    · rw [← Option.some.inj h]
      intro ev hev
      rw [(request_frame i s.db).events] at hev
      exact hs ev hev
    · contradiction
  | list l =>
    rw [(listStep_effect h).1]
    exact hs
  | wipeAll =>
    rw [← Option.some.inj h]
    exact hs
  | cycle c =>
    rw [← Option.some.inj h]
    intro ev hev
    rw [cycle_frame.events] at hev
    exact hs ev hev
  | ingest b =>
    rw [← Option.some.inj h]
    intro ev hev
    rcases mem_ingest hev with hev | ⟨p, hp, hrow⟩
    · exact hs ev hev
    · exact storedPlainly_eventRow (hok p hp) hrow

/-- The counted failures of an address are evidence later than every Lift of a global row that
stores the address. -/
theorem justified_of_mem_cycle {db : Db} {now : Int} {c : EngineCycle} {lb : BanRow} {after : Int}
    (hev : ∀ ev ∈ db.events, StoredPlainly a ev) (hlb : lb ∈ db.bans.rows)
    (hip : lb.target.ip = Inet.ofAddr a) (hscope : lb.scope = .global)
    (hat : lb.liftedAt = some after) (hreason : lb.liftReason ≠ some .remoteSync)
    (hcreate : CreatesAutoBan c now db (hostNet a)) :
    Justified db now c.plan (hostNet a) after := by
  obtain ⟨r, hr, hnew, hnet⟩ := hcreate
  obtain ⟨cand, hcand, htext, -⟩ := mem_cycle hr hnew
  obtain ⟨p, hp, cfg, hcfg, ip, hcip, hcount⟩ := mem_candidates hcand
  rw [hcip, netOfText_text_inet, hnet] at htext
  refine ⟨p, hp, cfg, hcfg, hcount.trans ?_⟩
  -- every counted failure is stored under the address itself, so the watermark holds for it
  rw [← List.countP_eq_length_filter, ← List.countP_eq_length_filter]
  apply List.countP_mono_left
  intro ev hmem hcounted
  rw [Bool.and_eq_true, beq_iff_eq] at hcounted
  obtain ⟨hcounted, rfl⟩ := hcounted
  have haddr : ev.address = some (hostNet a) := htext
  have hlt : after < ev.timestamp :=
    lt_of_isCounted hcounted hlb (hip.trans (hev ev hmem haddr).symm) hscope hat hreason
  simp only [isCounted, Bool.and_eq_true] at hcounted
  simp only [isEvidence, Bool.and_eq_true, decide_eq_true_eq]
  exact ⟨⟨⟨hcounted.1.1, by simpa using hcounted.1.2⟩, haddr⟩, hlt⟩

end evidence

/-- In every run after a Lift of a global ban whose row stores the address `a`, the engine bans `a`
again only for failures later than the Lift. -/
theorem autoBan_justified (env : SafetyEnv) (a : Addr) (s s1 s2 : ListState) (i : Issued) (b : BanRow)
    (as : List SystemAction) (c : EngineCycle) (hlift : Lifts i s.db b) (hscope : b.scope = .global)
    (hip : b.target.ip = Inet.ofAddr a) (hev : ∀ ev ∈ s.db.events, StoredPlainly a ev)
    (h1 : systemStep env s (.request i) = some s1)
    (hok : StepsMeet (systemStep env) (fun _ => PlainIntake a) s1 as)
    (h2 : run (systemStep env) s1 as = some s2)
    (hcreate : CreatesAutoBan c s2.now s2.db (hostNet a)) :
    Justified s2.db s2.now c.plan (hostNet a) i.now := by
  have hstep : ∀ t act t', (b.deactivated i.now .lift ∈ t.db.bans.rows ∧
      ∀ ev ∈ t.db.events, StoredPlainly a ev) → PlainIntake a act →
        systemStep env t act = some t' → b.deactivated i.now .lift ∈ t'.db.bans.rows ∧
          ∀ ev ∈ t'.db.events, StoredPlainly a ev := by
    intro t act t' hinv hplain ht
    exact ⟨step_inactive ht hinv.1 rfl, step_storedPlainly hplain hinv.2 ht⟩
  have hstart : b.deactivated i.now .lift ∈ s1.db.bans.rows ∧
      ∀ ev ∈ s1.db.events, StoredPlainly a ev := by
    have hplain : PlainIntake a (.request i) := trivial
    refine ⟨?_, step_storedPlainly hplain hev h1⟩
    simp only [systemStep] at h1
    split at h1
    · rw [← Option.some.inj h1]
      exact hlift.spec.1
    · contradiction
  obtain ⟨hrow, hplain⟩ := run_invariant hstep hstart hok h2
  exact justified_of_mem_cycle hplain hrow hip hscope rfl (by simp [BanRow.deactivated]) hcreate

instance (i : Issued) (db : Db) (b : BanRow) : Decidable (Lifts i db b) :=
  decidable_of_iff (i.request.isLift = true ∧ b ∈ db.bans.rows ∧ b.isActive = true ∧
      ∃ b' ∈ (i.run db).bans.rows, b'.id = b.id ∧ b'.isActive = false)
    ⟨fun ⟨hlift, hmem, hactive, hinactive⟩ => ⟨hlift, hmem, hactive, hinactive⟩,
      fun h => ⟨h.lift, h.mem, h.active, h.inactive⟩⟩

/-- The address of the runs below. -/
def attacker : Addr := ⟨.v4, 0xc6336407, sampleHost.addr_lt⟩

/-- Two failures of the address on the service `ssh` of device 7, as an agent reports them. -/
def twoFailures (timestamp : Int) : EventBatch :=
  let failure : AgentIpEvent := ⟨some "198.51.100.7", none, "ssh", "auth_failure", some timestamp, none⟩
  ⟨7, 1, [], [], [failure, failure]⟩

/-- A cycle in which two failures in ten minutes ban for good. -/
def twoFailuresCycle : EngineCycle := ⟨[(7, [⟨"ssh", 600, 2⟩])], plainEnv, ⟨none, []⟩⟩

/-- A request of an administrator on the Default tenant. -/
def defaultRequest (request : OperatorRequest) (now : Int) : Issued :=
  ⟨request, ⟨1, 1, true, true, none⟩, now, plainEnv, netOfText⟩

/-- The auto-ban of the address, as the first cycle creates it. -/
def firstAutoBan : BanRow :=
  autoRow ⟨"198.51.100.7", 1, "ssh", 2⟩ ⟨⟨"198.51.100.7", .v4, 32⟩, false, "198.51.100.7",
    hostNet attacker, by decide, by decide +kernel⟩ none 1

/-- The tables after the first cycle. -/
def firstBanDb : Db := twoFailuresCycle.run 0 (ingest (twoFailures 0) 0 Db.empty)

/-- Two new failures ban the address again. -/
theorem autoBan_justified_newFailures :
    Justified (ingest (twoFailures 20) 20 ((defaultRequest (.lift 1) 10).run firstBanDb)) 20
      twoFailuresCycle.plan (hostNet attacker) 10 := by
  have hplain : PlainIntake attacker (.ingest (twoFailures 20)) := by
    unfold PlainIntake
    decide +kernel
  obtain ⟨hlifts, hstored, hcreates⟩ : Lifts (defaultRequest (.lift 1) 10) firstBanDb firstAutoBan ∧
      (∀ ev ∈ firstBanDb.events, StoredPlainly attacker ev) ∧
      CreatesAutoBan twoFailuresCycle 20
        (ingest (twoFailures 20) 20 ((defaultRequest (.lift 1) 10).run firstBanDb)) (hostNet attacker) := by
    decide +kernel
  exact autoBan_justified plainEnv attacker ⟨firstBanDb, 10⟩
    ⟨(defaultRequest (.lift 1) 10).run firstBanDb, 10⟩ ⟨_, 20⟩ (defaultRequest (.lift 1) 10)
    firstAutoBan [.list (.pass 20), .ingest (twoFailures 20)] twoFailuresCycle hlifts rfl rfl hstored rfl
    ⟨trivial, fun _ _ => ⟨hplain, fun _ _ => trivial⟩⟩ rfl hcreates

/-- The network the address lies in. -/
def attackerSubnet : Net := sampleSubnet

/-- The tables with the failures and an operator's ban of the subnet. -/
def subnetBanDb : Db :=
  (defaultRequest (.createBan true ⟨some "198.51.100.0/24", none, none, none, none, none⟩) 0).run
    (ingest (twoFailures 0) 0 Db.empty)

/-- The ban of the subnet. -/
def subnetBan : BanRow :=
  manualRow ⟨1, 1, true, true, none⟩
    ⟨⟨⟨"198.51.100.0", .v4, 24⟩, true, "198.51.100.0/24", attackerSubnet, by decide,
      by decide +kernel⟩, .global, none, none, none, none⟩ 1

/-- The tables after the ban of the subnet is lifted at 10. -/
def liftedSubnetDb : Db := (defaultRequest (.lift 1) 10).run subnetBanDb

/-- The ban of the subnet is lifted; the failures of before ban an address of it, which has none
since. -/
theorem autoBan_unjustified : ∃ s s1 s2 b,
    run (systemStep plainEnv) ⟨Db.empty, 0⟩ [.ingest (twoFailures 0), .request
      (defaultRequest (.createBan true ⟨some "198.51.100.0/24", none, none, none, none, none⟩) 0),
      .list (.pass 10)] = some s ∧
    Lifts (defaultRequest (.lift 1) 10) s.db b ∧ b.scope = .global ∧ b.net = attackerSubnet ∧
    attacker ∈ b.net ∧ systemStep plainEnv s (.request (defaultRequest (.lift 1) 10)) = some s1 ∧
    run (systemStep plainEnv) s1 [.list (.pass 20)] = some s2 ∧
    CreatesAutoBan twoFailuresCycle s2.now s2.db (hostNet attacker) ∧
    ¬ Justified s2.db s2.now twoFailuresCycle.plan (hostNet attacker) 10 := by
  obtain ⟨hlifts, hnet, hmem, hcreates, hunjustified⟩ :
      Lifts (defaultRequest (.lift 1) 10) subnetBanDb subnetBan ∧ subnetBan.net = attackerSubnet ∧
      attacker ∈ subnetBan.net ∧ CreatesAutoBan twoFailuresCycle 20 liftedSubnetDb (hostNet attacker) ∧
      ¬ Justified liftedSubnetDb 20 twoFailuresCycle.plan (hostNet attacker) 10 := by
    unfold Justified
    decide +kernel
  refine ⟨⟨subnetBanDb, 10⟩, ⟨liftedSubnetDb, 10⟩, ⟨liftedSubnetDb, 20⟩, subnetBan, ?_, ?_, rfl, hnet, hmem,
    ?_, ?_, ?_, ?_⟩
  · simp only [run, systemStep, listStep, Option.bind_some, subnetBanDb, defaultRequest, Int.reduceLE,
      ↓reduceIte]
  · dsimp only
    exact hlifts
  · simp only [systemStep, defaultRequest, ↓reduceIte, liftedSubnetDb]
  · simp only [run, systemStep, listStep, Option.bind_some, Int.reduceLE, ↓reduceIte]
  · dsimp only
    exact hcreates
  · dsimp only
    exact hunjustified

/-! ## Entries of lists -/

/-- The network that the ban of an entry gets. -/
def BlockedIp.target (e : BlockedIp) : Option Net := netOfText (String.ofList e.ip.castText)

/-- No list has an enabled entry for the network. -/
def NoEnabledEntry (x : Net) (db : Db) : Prop :=
  ∀ e ∈ db.blockedIps.rows, e.enabled = true → e.target ≠ some x

/-- The condition on the steps after a Lift: no operator enables an entry for `x`, and no sync of a
list whose source serves `x` finds the list without an entry for it. -/
def KeepsLifted (env : SafetyEnv) (x : Net) (s : ListState) : SystemAction → Prop
  | .list (.toggle id true _) => ∀ e ∈ s.db.blockedIps.rows, e.id = id → e.target ≠ some x
  | .list (.sync id body) => ∀ list ws, s.db.blocklists.find id = some list →
      syncWrites env s.now list body = some ws → ∀ w ∈ ws, w.target.net = x →
        ∃ e ∈ s.db.blockedIps.rows, isEntryOf list.id x e = true
  | _ => True

section entries
variable {env : SafetyEnv} {s s' : ListState} {x : Net}

theorem noEnabledEntry_frame {db db' : Db} (h : RequestFrame db db') (hno : NoEnabledEntry x db) :
    NoEnabledEntry x db' := by
  intro e' he' hen
  obtain ⟨e, he, -, hip, hen'⟩ := h.entries e' he'
  have hno := hno e he (hen' hen)
  rwa [BlockedIp.target, ← hip] at hno

theorem noEnabledEntry_sync {db : Db} {now : Int} {list : Blocklist} {ws : List (EntryWrite list.id)}
    (hws : ∀ w ∈ ws, w.target.net = x → ∃ e ∈ db.blockedIps.rows, isEntryOf list.id x e = true)
    (hno : NoEnabledEntry x db) :
    NoEnabledEntry x { db with blockedIps := syncEntries now list ws db.blockedIps } := by
  intro e he hen
  rcases mem_syncEntries he with ⟨f, hf, hsame⟩ | ⟨w, hw, hip, hfree⟩
  · have hno := hno f hf (hsame.enabled ▸ hen)
    rwa [BlockedIp.target, ← hsame.ip] at hno
  · have htarget : e.target = some w.target.net := by
      rw [BlockedIp.target, netOfText_castText, hip]
      exact targetOf_first w.target.not_mapped
    rw [htarget]
    intro hx
    have hx := Option.some.inj hx
    obtain ⟨f, hf, hkey⟩ := hws w hw hx
    rw [← hx, hfree f hf] at hkey
    contradiction

theorem noEnabledEntry_switch {db : Db} {id : Nat} {enabled : Bool}
    (hid : enabled = true → ∀ e ∈ db.blockedIps.rows, e.id = id → e.target ≠ some x)
    (hno : NoEnabledEntry x db) :
    NoEnabledEntry x { db with blockedIps := switchEntry db.blockedIps id enabled } := by
  intro e he hen
  simp only [switchEntry, Table.mem_update] at he
  obtain ⟨f, hf, rfl⟩ := he
  by_cases hk : (f.id == id) = true
  · rw [if_pos hk] at hen ⊢
    exact hid hen f hf (beq_iff_eq.mp hk)
  · rw [if_neg hk] at hen ⊢
    exact hno f hf hen

theorem noEnabledEntry_reconcile {db : Db} {now : Int} {list : Blocklist} (hno : NoEnabledEntry x db) :
    NoEnabledEntry x (reconcileListBans env now list db) := by
  rw [reconcile_frame]
  exact hno

theorem noEnabledEntry_listStep {a : ListAction} (hok : KeepsLifted env x s (.list a))
    (hno : NoEnabledEntry x s.db) (h : listStep env s a = some s') : NoEnabledEntry x s'.db := by
  cases a with
  | sync id body =>
    rw [← Option.some.inj h]
    simp only [syncOne]
    split
    · exact hno
    · rename_i list hlist
      split
      · exact hno
      · rename_i ws hws
        exact noEnabledEntry_reconcile (noEnabledEntry_sync (hok list ws hlist hws) hno)
  | toggle id enabled tenantId =>
    rw [← Option.some.inj h]
    simp only [toggleIp]
    split
    · exact hno
    · have hswitch : NoEnabledEntry x
          { s.db with blockedIps := switchEntry s.db.blockedIps id enabled } := by
        apply noEnabledEntry_switch _ hno
        rintro rfl
        exact hok
      split
      · exact noEnabledEntry_reconcile hswitch
      · exact hswitch
  | update id tenantId patch =>
    rw [← Option.some.inj h]
    simp only [updateList]
    split
    · exact hno
    · split
      · exact noEnabledEntry_reconcile hno
      · exact hno
  | delete id tenantId =>
    rw [← Option.some.inj h]
    simp only [deleteList]
    split
    · exact hno
    · intro e he
      refine hno e ?_
      have he := (Table.mem_delete.mp he).1
      rwa [deactivateRemoteBans, deactivateBans_blockedIps (by simp)] at he
  | create name url sourceType apiKey enforce tenantId =>
    rw [← Option.some.inj h]
    exact hno
  | expireBans =>
    rw [← Option.some.inj h]
    exact noEnabledEntry_frame (frame_deactivateBans _ _ _) hno
  | pass time =>
    simp only [listStep] at h
    split at h
    · rw [← Option.some.inj h]
      exact hno
    · contradiction
  | ban row =>
    rw [← Option.some.inj h]
    exact hno

theorem noEnabledEntry_step {act : SystemAction} (hok : KeepsLifted env x s act)
    (hno : NoEnabledEntry x s.db) (h : systemStep env s act = some s') : NoEnabledEntry x s'.db := by
  cases act with
  | request i =>
    simp only [systemStep] at h
    split at h
    · rw [← Option.some.inj h]
      exact noEnabledEntry_frame (request_frame i s.db) hno
    · contradiction
  | list a => exact noEnabledEntry_listStep hok hno h
  | wipeAll =>
    rw [← Option.some.inj h]
    exact noEnabledEntry_frame (frame_deactivateBans _ _ _) hno
  | ingest b =>
    rw [← Option.some.inj h]
    simp only [Server.ingest]
    split
    · exact hno
    · exact hno
  | cycle c =>
    rw [← Option.some.inj h]
    exact noEnabledEntry_frame cycle_frame hno

theorem noEnabledEntry_lift {db : Db} {i : Issued} {b : BanRow} (h : Lifts i db b)
    (hbehind : ∀ e ∈ db.blockedIps.rows, e.enabled = true → e.target = some b.net →
      isLiftedEntry b e = true) : NoEnabledEntry b.net (i.run db) := by
  intro e' he' hen htarget
  obtain ⟨e, he, hl, hip, hen'⟩ := (request_frame i db).entries e' he'
  have hlifted : isLiftedEntry b e = true := by
    apply hbehind e he (hen' hen)
    rwa [BlockedIp.target, ← hip]
  have hnot := h.spec.2 e' he' hen
  rw [isLiftedEntry, hl, hip] at hnot
  rw [isLiftedEntry, hnot] at hlifted
  contradiction

end entries

/-- The rows that a step adds for a network. -/
def CreatesGlobalBan (s s' : ListState) (x : Net) : Prop :=
  ∃ r ∈ s'.db.bans.rows, s.db.bans.seq ≤ r.id ∧ r.scope = .global ∧ r.net = x

instance (s s' : ListState) (x : Net) : Decidable (CreatesGlobalBan s s' x) :=
  inferInstanceAs (Decidable (∃ r ∈ _, _))

theorem not_createsGlobalBan {env : SafetyEnv} {s s' : ListState} {a : ListAction} {x : Net}
    (hno : NoEnabledEntry x s'.db) (h : listStep env s a = some s') (hban : ∀ row, a ≠ .ban row) :
    ¬ CreatesGlobalBan s s' x := by
  rintro ⟨r, hr, hnew, -, hnet⟩
  obtain ⟨-, ⟨list, db, hbans, hdb⟩ | ⟨ids, reason, hbans⟩ | ⟨row, hrow, -⟩⟩ := listStep_effect h
  · rw [hdb] at hr hno
    rw [← hbans] at hnew
    obtain ⟨e, he, hentry, t, hcheck, reason, id, rfl⟩ := new_of_mem_reconcile hr hnew
    rw [reconcile_frame] at hno
    simp only [isBannedEntry, Bool.and_eq_true] at hentry
    apply hno e he hentry.1.2
    rw [BlockedIp.target, (checkBanTarget_net hcheck).1, ← hnet, net_remoteRow]
  · rw [hbans] at hr
    have hlt := (Table.bounds _ r hr).2
    rw [deactivateBans_bans] at hlt
    exact absurd hlt (Nat.not_lt.mpr hnew)
  · exact hban row hrow

/-- In every run after a Lift that reaches every enabled entry for its target, no list creates a ban
of that target while the steps keep it lifted. -/
theorem remoteBan_not_recreated (env : SafetyEnv) (s s1 s2 s3 : ListState) (i : Issued) (b : BanRow)
    (as : List SystemAction) (a : ListAction) (hlift : Lifts i s.db b)
    (hbehind : ∀ e ∈ s.db.blockedIps.rows, e.enabled = true → e.target = some b.net →
      isLiftedEntry b e = true)
    (h1 : systemStep env s (.request i) = some s1)
    (hok : StepsMeet (systemStep env) (KeepsLifted env b.net) s1 as)
    (h2 : run (systemStep env) s1 as = some s2) (hlast : KeepsLifted env b.net s2 (.list a))
    (h3 : listStep env s2 a = some s3) (hban : ∀ row, a ≠ .ban row) :
    ¬ CreatesGlobalBan s2 s3 b.net := by
  have hstart : NoEnabledEntry b.net s1.db := by
    simp only [systemStep] at h1
    split at h1
    · rw [← Option.some.inj h1]
      exact noEnabledEntry_lift hlift hbehind
    · contradiction
  have hstep : ∀ t act t', NoEnabledEntry b.net t.db → KeepsLifted env b.net t act →
      systemStep env t act = some t' → NoEnabledEntry b.net t'.db := by
    intro t act t' hno hkeep ht
    exact noEnabledEntry_step hkeep hno ht
  have hrun : NoEnabledEntry b.net s2.db :=
    run_invariant (P := fun t => NoEnabledEntry b.net t.db) hstep hstart hok h2
  exact not_createsGlobalBan (noEnabledEntry_listStep hlast hrun h3) h3 hban

/-- The tables after a first sync of the first list. -/
def oneSyncedDb : Db := syncOne plainEnv 0 1 servedAddress twoListsDb

/-- The tables after a first sync of both lists. -/
def bothSyncedDb : Db := syncOne plainEnv 0 2 servedAddress oneSyncedDb

/-- The Lift of the ban that the first list created. -/
def liftFirst : Issued := defaultRequest (.lift 1) 0

/-- The ban that the first list created. -/
def firstListBan : BanRow :=
  remoteRow (listOptions ⟨1, "A", .url, "https://a.example", none, true, none⟩)
    ⟨⟨⟨"198.51.100.7", .v4, 32⟩, false, "198.51.100.7", hostNet attacker, by decide,
      by decide +kernel⟩, some "Remote blocklist \"A\""⟩ 1

/-- With one list only, its next sync leaves the lifted ban alone. -/
theorem remoteBan_not_recreated_oneList :
    ¬ CreatesGlobalBan ⟨liftFirst.run oneSyncedDb, 0⟩
      ⟨syncOne plainEnv 0 1 servedAddress (liftFirst.run oneSyncedDb), 0⟩ firstListBan.net := by
  have hkeep : KeepsLifted plainEnv firstListBan.net ⟨liftFirst.run oneSyncedDb, 0⟩
      (.list (.sync 1 servedAddress)) := by
    intro list ws hlist _ w _ _
    obtain ⟨-, hid⟩ := Table.find_eq_some.mp hlist
    rw [hid]
    decide +kernel
  obtain ⟨hlifts, hbehind⟩ : Lifts liftFirst oneSyncedDb firstListBan ∧
      ∀ e ∈ oneSyncedDb.blockedIps.rows, e.enabled = true → e.target = some firstListBan.net →
        isLiftedEntry firstListBan e = true := by decide +kernel
  refine remoteBan_not_recreated plainEnv ⟨oneSyncedDb, 0⟩ ⟨liftFirst.run oneSyncedDb, 0⟩
    ⟨liftFirst.run oneSyncedDb, 0⟩ ⟨_, 0⟩ liftFirst firstListBan [] (.sync 1 servedAddress) ?_ ?_
    ?_ trivial ?_ hkeep ?_ fun _ => by simp
  · dsimp only
    exact hlifts
  · dsimp only
    exact hbehind
  · simp only [systemStep, liftFirst, defaultRequest, ↓reduceIte]
  · rw [run]
  · rw [listStep]

/-- The second list was passed over while the ban of the first one was in force; after the Lift its
next sync creates the ban again. -/
theorem remoteBan_recreated : ∃ s s1 s2,
    run (systemStep plainEnv) ⟨twoListsDb, 0⟩
      [.list (.sync 1 servedAddress), .list (.sync 2 servedAddress)] = some s ∧
    Lifts liftFirst s.db firstListBan ∧ firstListBan.scope = .global ∧
    isMasterTenant liftFirst.caller.tenantId = true ∧
    systemStep plainEnv s (.request liftFirst) = some s1 ∧
    listStep plainEnv s1 (.sync 2 servedAddress) = some s2 ∧
    CreatesGlobalBan s1 s2 firstListBan.net := by
  obtain ⟨hlifts, hcreates⟩ : Lifts liftFirst bothSyncedDb firstListBan ∧
      CreatesGlobalBan ⟨liftFirst.run bothSyncedDb, 0⟩
        ⟨syncOne plainEnv 0 2 servedAddress (liftFirst.run bothSyncedDb), 0⟩ firstListBan.net := by
    decide +kernel
  refine ⟨⟨bothSyncedDb, 0⟩, ⟨liftFirst.run bothSyncedDb, 0⟩, _, ?_, ?_, rfl, rfl, ?_, ?_, hcreates⟩
  · simp only [run, systemStep, listStep, Option.bind_some, bothSyncedDb, oneSyncedDb]
  · dsimp only
    exact hlifts
  · simp only [systemStep, liftFirst, defaultRequest, ↓reduceIte]
  · rw [listStep]

end Obliguard.Server

import Obliguard.Server.UninstallCleanup

/-!
# The one-step claim and enqueue against their statements

`Fleet.claim` and `Fleet.enqueue` take a transaction of `commandStep` as one step. `claim_statements`
and `enqueue_statements` compare the two, wherever a run of `fleetStep` stands (`settled_run`): the
transaction, run to its end with nothing between its statements, leaves the rows that the one step
leaves and returns those that it returns.
-/

namespace Obliguard.Server

open ReadCommitted Runs

/-! ## Every step commits -/

/-- Nobody has a version under way. -/
structure Fleet.Settled (s : Fleet) : Prop where
  commands : ∀ i, (s.commands.cells i).working = none
  devices : ∀ i, (s.devices.cells i).working = none

section settled
variable {s s' : Fleet}

theorem settled_exec {u : CommandUpdate} {c c' : Store AgentCommandRow} {ids : List Nat}
    (h : ∀ i, (c.cells i).working = none) (hexec : u.exec c none = .done (ids, c')) (i : Nat) :
    (c'.cells i).working = none := by
  rw [working_update_none hexec rfl, h i]

theorem settled_insert {r : AgentCommandRow} {c c' : Store AgentCommandRow}
    (h : ∀ i, (c.cells i).working = none) (hinsert : c.insert outstandingKey none r = .done c')
    (i : Nat) : (c'.cells i).working = none := by
  obtain rfl := insert_eq hinsert
  show (if i = c.seq then Cell.empty.write none r else c.cells i).working = none
  split
  · rfl
  · exact h i

theorem settled_delete {ρ : Type} {c : Store ρ} {p : Nat → ρ → Bool}
    (h : ∀ i, (c.cells i).working = none) (i : Nat) : ((c.delete p).cells i).working = none := by
  show (if (c.cells i).committed.any (p i) then Cell.empty else c.cells i).working = none
  split
  · rfl
  · exact h i

theorem Fleet.Settled.updateDevice (h : s.Settled) {p : Nat → AgentDeviceRow → Bool}
    {f : AgentDeviceRow → AgentDeviceRow} {ids : List Nat} {devices : Store AgentDeviceRow}
    (hupdate : s.updateDevice p f = .done (ids, devices)) (i : Nat) :
    (devices.cells i).working = none := by
  rw [working_update_none hupdate rfl, h.devices i]

theorem Fleet.Settled.alone (h : s.Settled) (u : CommandUpdate)
    {after : List ClaimedRow → Fleet → Fleet}
    (hafter : ∀ rows s', (after rows s').commands = s'.commands ∧
      (after rows s').devices = s'.devices) : (s.alone u after).Settled := by
  unfold Fleet.alone
  split
  · rename_i ids commands hexec
    obtain ⟨hcommands, hdevices⟩ := hafter
      ({ s with commands := commands }.returning ids) { s with commands := commands }
    refine ⟨?_, ?_⟩
    · rw [hcommands]
      exact settled_exec h.commands hexec
    · rw [hdevices]
      exact h.devices
  · exact h

theorem settled_enqueue (h : s.Settled) (d : EnqueueData) : (s.enqueue d).Settled := by
  unfold Fleet.enqueue
  split
  · exact h
  · dsimp only
    split
    · exact h
    · split
      · rename_i commands hinsert
        split
        · split
          · rename_i devices hupdate
            exact ⟨settled_insert h.commands hinsert, h.updateDevice hupdate⟩
          · exact h
        · exact ⟨settled_insert h.commands hinsert, h.devices⟩
      · exact h

theorem settled_claimInsert {c : ClaimData} {commands commands' : Store AgentCommandRow}
    (h : ∀ i, (commands.cells i).working = none)
    (hinsert : Fleet.claimInsert c commands = .done commands') (i : Nat) :
    (commands'.cells i).working = none := by
  unfold Fleet.claimInsert at hinsert
  dsimp only at hinsert
  split at hinsert
  · exact settled_insert h hinsert i
  · rw [← Outcome.done.inj hinsert]
    exact h i

theorem settled_claimSend {c : ClaimData} {commands commands' : Store AgentCommandRow}
    {ids : List Nat} (h : ∀ i, (commands.cells i).working = none)
    (hsend : Fleet.claimSend c commands = .done (ids, commands')) (i : Nat) :
    (commands'.cells i).working = none := by
  unfold Fleet.claimSend at hsend
  split at hsend
  · exact settled_exec h hsend i
  · exact settled_exec h hsend i

theorem settled_claimDevice (h : s.Settled) {c : ClaimData} {rows : List ClaimedRow}
    {devices : Store AgentDeviceRow} (hdevice : s.claimDevice c rows = .done devices) (i : Nat) :
    (devices.cells i).working = none := by
  unfold Fleet.claimDevice at hdevice
  split at hdevice
  · split at hdevice
    · rename_i hupdate
      rw [← Outcome.done.inj hdevice]
      exact h.updateDevice hupdate i
    · contradiction
    · contradiction
  · rw [← Outcome.done.inj hdevice]
    exact h.devices i

theorem settled_claim (h : s.Settled) (deviceId : Nat) (cmdqueue : Bool) (now : Int) :
    (s.claim deviceId cmdqueue now).2.Settled := by
  unfold Fleet.claim
  split
  · exact h
  · dsimp only
    split
    · exact h
    · split
      · rename_i hexpire
        split
        · rename_i hinsert
          split
          · rename_i commands hsend
            have hcommands := settled_claimSend
              (settled_claimInsert (settled_exec h.commands hexpire) hinsert) hsend
            split
            · rename_i hdevice
              have h' : ({ s with commands := commands } : Fleet).Settled := ⟨hcommands, h.devices⟩
              exact ⟨hcommands, settled_claimDevice h' hdevice⟩
            · exact h
          · exact h
        · exact h
      · exact h

theorem settled_step {a : FleetAction} (h : s.Settled) (hstep : fleetStep s a = some s') :
    s'.Settled := by
  cases a with
  | enqueue d =>
    obtain rfl := Option.some.inj hstep
    exact settled_enqueue h d
  | drain t deviceId kind cmdqueue now =>
    simp only [fleetStep] at hstep
    split at hstep
    · obtain rfl := Option.some.inj hstep
      exact ⟨(settled_claim h _ _ _).commands, (settled_claim h _ _ _).devices⟩
    · contradiction
  | fail id deviceId now result =>
    obtain rfl := Option.some.inj hstep
    exact h.alone _ fun _ _ => ⟨rfl, rfl⟩
  | ack deviceId id status result now =>
    obtain rfl := Option.some.inj hstep
    cases ackId id with
    | none => exact h
    | some i =>
      have hack : (s.alone (.ack i deviceId status result now) fun rows s' => { s' with
          deviceWrites := s'.deviceWrites ++ if status = .failed ∧ rows.any (·.isUninstall) then
            [.clearCommanded deviceId] else [] }).Settled := h.alone _ fun _ _ => ⟨rfl, rfl⟩
      exact ⟨hack.commands, hack.devices⟩
  | sweepExpired now =>
    obtain rfl := Option.some.inj hstep
    exact h.alone _ fun _ _ => ⟨rfl, rfl⟩
  | sweepTimedOut now =>
    obtain rfl := Option.some.inj hstep
    exact h.alone _ fun _ _ => ⟨rfl, rfl⟩
  | requeue t =>
    simp only [fleetStep] at hstep
    split at hstep
    · rename_i rows _
      obtain rfl := Option.some.inj hstep
      have hback : (s.alone (.requeue (rows.map (·.id))) fun back s' => { s' with
          deviceWrites := s'.deviceWrites ++ (back.filter (·.isUninstall)).map fun r =>
            .restorePending r.row.deviceId }).Settled := h.alone _ fun _ _ => ⟨rfl, rfl⟩
      exact ⟨hback.commands, hback.devices⟩
    · contradiction
  | deviceWrite n =>
    simp only [fleetStep] at hstep
    split at hstep
    · contradiction
    · split at hstep
      · rename_i hupdate
        obtain rfl := Option.some.inj hstep
        exact ⟨h.commands, h.updateDevice hupdate⟩
      · contradiction
  | setPending deviceId command =>
    simp only [fleetStep] at hstep
    split at hstep
    · rename_i hupdate
      obtain rfl := Option.some.inj hstep
      exact ⟨h.commands, h.updateDevice hupdate⟩
    · contradiction
  | cleanupDelete deviceId =>
    simp only [fleetStep] at hstep
    split at hstep
    · obtain rfl := Option.some.inj hstep
      exact ⟨settled_delete h.commands, settled_delete h.devices⟩
    · contradiction
  | write t | writeFail t | skip t | select t | die t | loseWrite n | cleanupSelect cutoff =>
    -- the tables stay
    simp only [fleetStep] at hstep
    repeat' split at hstep
    all_goals
      first
        | contradiction
        | (obtain rfl := Option.some.inj hstep
           exact ⟨h.commands, h.devices⟩)

theorem settled_run {s0 : Fleet} {as : List FleetAction} (h0 : s0.Settled)
    (h : run fleetStep s0 as = some s) : s.Settled :=
  run_preserves (fun _ _ _ => settled_step) h0 h

end settled

/-! ## Runs of one transaction -/

/-- The transaction is about to execute `tx`; it began on `db0`. -/
structure InTx (db0 : CommandDb) (t : Nat) (db : CommandDb) (tx : CommandTx) : Prop where
  tx : db.txs t = some tx
  commands : db0.commands.During t db.commands
  devices : db0.devices.During t db.devices
  events : db.events = db0.events

/-- `db'` is what a call on `db0` leaves that returns `rows` and has the tables of `s`. -/
structure Leaves (db0 db' : CommandDb) (rows : List ClaimedRow) (s : Fleet) : Prop where
  commands : db'.commands.cells = s.commands.cells
  devices : db'.devices.cells = s.devices.cells
  events : db'.events = db0.events ++
    rows.map fun row => .returned row.id ((db0.commands.cells row.id).committed.map (·.status))

/-- The transaction runs to its end, and that is what it leaves. -/
def Ends (db0 : CommandDb) (t : Nat) (db : CommandDb) (claimed : List ClaimedRow × Fleet) : Prop :=
  ∃ n db', run commandStep db (List.replicate n (.next t)) = some db' ∧ db'.txs t = none ∧
    Leaves db0 db' claimed.1 claimed.2

section run
variable {t : Nat} {db0 db db1 : CommandDb} {tx : CommandTx} {claimed : List ClaimedRow × Fleet}
  {s : Fleet}

theorem Ends.last (h : db.txs t = none) (hleaves : Leaves db0 db claimed.1 claimed.2) :
    Ends db0 t db claimed :=
  ⟨0, db, rfl, h, hleaves⟩

theorem Ends.head (hstep : commandStep db (.next t) = some db1) (h : Ends db0 t db1 claimed) :
    Ends db0 t db claimed := by
  obtain ⟨n, db', hrun, hend, hleaves⟩ := h
  exact ⟨n + 1, db', run_cons.mpr ⟨db1, hstep, hrun⟩, hend, hleaves⟩

namespace InTx

theorem step (h : InTx db0 t db tx) : commandStep db (.next t) = db.next t tx := by
  show (db.txs t).bind (db.next t) = _
  rw [h.tx]
  rfl

theorem setTx (h : InTx db0 t db tx) (tx' : CommandTx) : InTx db0 t (db.setTx t (some tx')) tx' :=
  ⟨if_pos rfl, h.commands, h.devices, h.events⟩

theorem setCommands (h : InTx db0 t db tx) {commands : Store AgentCommandRow}
    (hduring : db0.commands.During t commands) (tx' : CommandTx) :
    InTx db0 t { (db.setTx t (some tx')) with commands := commands } tx' :=
  ⟨if_pos rfl, hduring, h.devices, h.events⟩

theorem setDevices (h : InTx db0 t db tx) {devices : Store AgentDeviceRow}
    (hduring : db0.devices.During t devices) (tx' : CommandTx) :
    InTx db0 t { (db.setTx t (some tx')) with devices := devices } tx' :=
  ⟨if_pos rfl, h.commands, hduring, h.events⟩

theorem rollback (h : InTx db0 t db tx) (hnext : db.next t tx = some (db.rollback t))
    (hcommands : s.commands = db0.commands) (hdevices : s.devices = db0.devices) :
    Ends db0 t db ([], s) := by
  refine .head (h.step.trans hnext) (.last (if_pos rfl) ⟨?_, ?_, ?_⟩)
  · rw [hcommands]
    exact h.commands.rollback_cells
  · rw [hdevices]
    exact h.devices.rollback_cells
  · rw [List.map_nil, List.append_nil]
    exact h.events

/-- An update of `agent_commands`, in the transaction and committed at once. -/
theorem exec (h : InTx db0 t db tx) {u : CommandUpdate} {next : List Nat → CommandTx}
    (hnext : db.next t tx = db.inTx t (u.exec db.commands (some t)) next)
    (hcommands : s.commands = db0.commands) (hdevices : s.devices = db0.devices) :
    (u.exec (db.commands.commit t) none = .violation ∧ Ends db0 t db ([], s)) ∨
    ∃ ids db1, u.exec (db.commands.commit t) none = .done (ids, db1.commands.commit t) ∧
      commandStep db (.next t) = some db1 ∧ InTx db0 t db1 (next ids) ∧ db1.devices = db.devices ∧
        ∀ i ∈ ids, ∃ r, ((db1.commands.commit t).cells i).committed = some r := by
  rcases h.commands.update outstandingKey u.cond fun _ => u.set with
    ⟨htx, hnone⟩ | ⟨ids, commands, htx, hnone, hduring⟩
  · refine .inl ⟨hnone, h.rollback ?_ hcommands hdevices⟩
    rw [hnext, CommandUpdate.exec, htx]
    rfl
  · refine .inr ⟨ids, { (db.setTx t (some (next ids))) with commands := commands }, hnone,
      h.step.trans ?_, h.setCommands hduring (next ids), rfl, ?_⟩
    · rw [hnext, CommandUpdate.exec, htx]
      rfl
    · intro i hi
      obtain ⟨r, hr, -⟩ := (mem_update htx).mp hi
      refine ⟨u.set r, ?_⟩
      rw [hduring.commit_view, cells_update htx hi hr]
      exact Cell.view_of_working rfl

/-- An insert into `agent_commands`. -/
theorem insert (h : InTx db0 t db tx) {r : AgentCommandRow} {tx' : CommandTx}
    (hdone : ∀ commands, db.commands.insert outstandingKey (some t) r = .done commands →
      db.next t tx = some { (db.setTx t (some tx')) with commands := commands })
    (hviolation : db.commands.insert outstandingKey (some t) r = .violation →
      db.next t tx = some (db.rollback t))
    (hcommands : s.commands = db0.commands) (hdevices : s.devices = db0.devices) :
    ((db.commands.commit t).insert outstandingKey none r = .violation ∧ Ends db0 t db ([], s)) ∨
    ∃ db1, (db.commands.commit t).insert outstandingKey none r = .done (db1.commands.commit t) ∧
      commandStep db (.next t) = some db1 ∧ InTx db0 t db1 tx' ∧ db1.devices = db.devices := by
  rcases h.commands.insert outstandingKey r with ⟨htx, hnone⟩ | ⟨commands, htx, hnone, hduring⟩
  · exact .inl ⟨hnone, h.rollback (hviolation htx) hcommands hdevices⟩
  · exact .inr ⟨_, hnone, h.step.trans (hdone commands htx), h.setCommands hduring tx', rfl⟩

theorem updateDevice (h : InTx db0 t db tx) {p : Nat → AgentDeviceRow → Bool}
    {f : AgentDeviceRow → AgentDeviceRow} (tx' : CommandTx) (hs : s.devices = db.devices.commit t)
    (hnext : db.next t tx = db.inTxDevice t (db.updateDevice (some t) p f) tx') :
    ∃ ids db1, s.updateDevice p f = .done (ids, db1.devices.commit t) ∧
      commandStep db (.next t) = some db1 ∧ InTx db0 t db1 tx' ∧ db1.commands = db.commands := by
  obtain ⟨ids, devices, htx, hnone, hduring⟩ := h.devices.update_keyless Unit p fun _ => f
  refine ⟨ids, { (db.setTx t (some tx')) with devices := devices }, ?_, h.step.trans ?_,
    h.setDevices hduring tx', rfl⟩
  · rw [Fleet.updateDevice, hs, hnone]
  · rw [hnext, CommandDb.updateDevice, htx]
    rfl

theorem outstandingIds (h : InTx db0 t db tx) (deviceId : Nat) (type : AgentCommandType) :
    db.outstandingIds t deviceId type = (db.commands.commit t).select none fun _ r =>
      r.deviceId == deviceId && r.type == type && r.outstanding :=
  (h.commands.select_commit _).symm

theorem queuedIds (h : InTx db0 t db tx) (deviceId : Nat) :
    db.queuedIds t deviceId = (((db.commands.commit t).select none fun _ r =>
      r.deviceId == deviceId && r.status == .queued).insertionSort fun i j =>
        (((db.commands.commit t).cells i).committed.map (·.createdAt)).getD 0 ≤
          (((db.commands.commit t).cells j).committed.map (·.createdAt)).getD 0).take drainLimit := by
  have hcreated : CommandDb.queuedIds.createdAt db t = fun i =>
      (((db.commands.commit t).cells i).committed.map (·.createdAt)).getD 0 := by
    funext i
    rw [CommandDb.queuedIds.createdAt, h.commands.commit_view]
  rw [CommandDb.queuedIds, hcreated, h.commands.select_commit]

end InTx

end run

/-! ## The claim -/

section claim
variable {t : Nat} {db0 db : CommandDb} {c : ClaimData} {s : Fleet}

theorem map_id_returning {s : Fleet} {ids : List Nat}
    (h : ∀ i ∈ ids, ∃ r, (s.commands.cells i).committed = some r) :
    (s.returning ids).map (·.id) = ids := by
  induction ids with
  | nil => rfl
  | cons i ids ih =>
    obtain ⟨r, hr⟩ := h i List.mem_cons_self
    have hcons : s.returning (i :: ids) = ⟨i, r⟩ :: s.returning ids := by
      simp [Fleet.returning, hr]
    rw [hcons, List.map_cons, ih fun j hj => h j (List.mem_cons_of_mem i hj)]

theorem any_isUninstall_returning (hduring : db0.commands.During t db.commands)
    (hs : s.commands = db.commands.commit t) (ids : List Nat) :
    (s.returning ids).any (·.isUninstall) = ids.any (db.isUninstall (some t)) := by
  induction ids with
  | nil => rfl
  | cons i ids ih =>
    have hview : (s.commands.cells i).committed = (db.commands.cells i).view (some t) := by
      rw [hs, hduring.commit_view]
    rw [List.any_cons, ← ih, CommandDb.isUninstall, ← hview]
    unfold Fleet.returning
    cases hr : (s.commands.cells i).committed with
    | none => simp [hr]
    | some r => simp [hr, ClaimedRow.isUninstall]

theorem claimCommit_ends {ids : List Nat} (h : InTx db0 t db (.claimCommit c ids))
    (hcommands : s.commands = db.commands.commit t) (hdevices : s.devices = db.devices.commit t)
    (hrows : ∀ i ∈ ids, ∃ r, ((db.commands.commit t).cells i).committed = some r) :
    Ends db0 t db (s.returning ids, s) := by
  refine .head h.step (.last (if_pos rfl) ⟨?_, ?_, ?_⟩)
  · rw [hcommands]
    rfl
  · rw [hdevices]
    rfl
  · have hids : (s.returning ids).map (·.id) = ids := by
      apply map_id_returning
      rw [hcommands]
      exact hrows
    have hevents : ids.map (fun i => DeliveryEvent.returned i
        ((db0.commands.cells i).committed.map (·.status))) = (s.returning ids).map fun row =>
          .returned row.id ((db0.commands.cells row.id).committed.map (·.status)) := by
      conv_lhs => rw [← hids]
      rw [List.map_map]
      rfl
    simp only [h.events, h.commands.committed, hevents]

theorem claimDevice_ends {ids : List Nat} (h : InTx db0 t db (.claimDevice c ids))
    (hcommands : s.commands = db.commands.commit t) (hdevices : s.devices = db.devices.commit t)
    (hrows : ∀ i ∈ ids, ∃ r, ((db.commands.commit t).cells i).committed = some r) :
    ∃ devices, s.claimDevice c (s.returning ids) = .done devices ∧
      Ends db0 t db (s.returning ids, { s with devices := devices }) := by
  have hany := any_isUninstall_returning h.commands hcommands ids
  by_cases huninstall : ids.any (db.isUninstall (some t)) = true
  · obtain ⟨ds, db1, hupdate, hstep, h1, hsame⟩ := h.updateDevice (.claimCommit c ids) hdevices
      (by rw [CommandDb.next, if_pos huninstall])
    refine ⟨db1.devices.commit t, ?_, .head hstep
      (claimCommit_ends (s := { s with devices := db1.devices.commit t }) h1 ?_ rfl ?_)⟩
    · rw [Fleet.claimDevice, hany, if_pos huninstall, hupdate]
    · rw [hsame]
      exact hcommands
    · rw [hsame]
      exact hrows
  · refine ⟨s.devices, ?_, .head (h.step.trans ?_) (claimCommit_ends (h.setTx (.claimCommit c ids))
      hcommands hdevices hrows)⟩
    · rw [Fleet.claimDevice, hany, if_neg huninstall]
    · rw [CommandDb.next, if_neg huninstall]

theorem claimSelect_spec (h : InTx db0 t db (.claimSelect c)) (hcommands : s.commands = db0.commands)
    (hdevices : s.devices = db0.devices) :
    (Fleet.claimSend c (db.commands.commit t) = .violation ∧ Ends db0 t db ([], s)) ∨
    ∃ ids db1, Fleet.claimSend c (db.commands.commit t) = .done (ids, db1.commands.commit t) ∧
      (∀ claimed, Ends db0 t db1 claimed → Ends db0 t db claimed) ∧
      InTx db0 t db1 (.claimDevice c ids) ∧ db1.devices = db.devices ∧
        ∀ i ∈ ids, ∃ r, ((db1.commands.commit t).cells i).committed = some r := by
  by_cases hqueue : c.cmdqueue = true
  · have hselected := h.setTx (.claimUpdate c (db.queuedIds t c.deviceId))
    have hstep : commandStep db (.next t) =
        some (db.setTx t (some (.claimUpdate c (db.queuedIds t c.deviceId)))) := by
      rw [h.step, CommandDb.next, if_pos hqueue]
    have hsend : Fleet.claimSend c (db.commands.commit t) =
        (CommandUpdate.send (db.queuedIds t c.deviceId) c.now).exec (db.commands.commit t) none := by
      rw [Fleet.claimSend, if_pos hqueue, h.queuedIds]
    rw [hsend]
    rcases hselected.exec rfl hcommands hdevices with
      ⟨hnone, hends⟩ | ⟨ids, db1, hnone, hstep1, h1, hsame, hrows⟩
    · exact .inl ⟨hnone, .head hstep hends⟩
    · exact .inr ⟨ids, db1, hnone, fun claimed hends => .head hstep (.head hstep1 hends), h1, hsame,
        hrows⟩
  · have hsend : Fleet.claimSend c (db.commands.commit t) =
        (CommandUpdate.sendLegacy c.deviceId c.now).exec (db.commands.commit t) none := by
      rw [Fleet.claimSend, if_neg hqueue]
    rw [hsend]
    rcases h.exec (by rw [CommandDb.next, if_neg hqueue]) hcommands hdevices with
      hviolation | ⟨ids, db1, hnone, hstep1, h1, hsame, hrows⟩
    · exact .inl hviolation
    · exact .inr ⟨ids, db1, hnone, fun claimed hends => .head hstep1 hends, h1, hsame, hrows⟩

theorem claimPending_spec (h : InTx db0 t db (.claimPending c)) (hcommands : s.commands = db0.commands)
    (hdevices : s.devices = db0.devices) :
    (Fleet.claimInsert c (db.commands.commit t) = .violation ∧ Ends db0 t db ([], s)) ∨
    ∃ db1, Fleet.claimInsert c (db.commands.commit t) = .done (db1.commands.commit t) ∧
      (∀ claimed, Ends db0 t db1 claimed → Ends db0 t db claimed) ∧
      InTx db0 t db1 (.claimSelect c) ∧ db1.devices = db.devices := by
  have hopen := h.outstandingIds c.deviceId .uninstall
  by_cases hinsert : c.dev.pendingCommand = some .uninstall ∧
      db.outstandingIds t c.deviceId .uninstall = []
  · have hstep : commandStep db (.next t) = some (db.setTx t (some (.claimInsert c))) := by
      rw [h.step, CommandDb.next, if_pos hinsert]
    rw [Fleet.claimInsert, ← hopen, if_pos hinsert]
    rcases (h.setTx (.claimInsert c)).insert (fun _ htx => by rw [CommandDb.next, htx])
        (fun htx => by rw [CommandDb.next, htx]) hcommands hdevices with
      ⟨hnone, hends⟩ | ⟨db1, hnone, hstep1, h1, hsame⟩
    · exact .inl ⟨hnone, .head hstep hends⟩
    · exact .inr ⟨db1, hnone, fun claimed hends => .head hstep (.head hstep1 hends), h1, hsame⟩
  · have hstep : commandStep db (.next t) = some (db.setTx t (some (.claimSelect c))) := by
      rw [h.step, CommandDb.next, if_neg hinsert]
    rw [Fleet.claimInsert, ← hopen, if_neg hinsert]
    exact .inr ⟨db.setTx t (some (.claimSelect c)), rfl, fun claimed hends => .head hstep hends,
      h.setTx (.claimSelect c), rfl⟩

theorem claimExpire_ends {s : Fleet} {dev : AgentDeviceRow} {deviceId : Nat} {cmdqueue : Bool}
    {now : Int} (h : InTx db0 t db (.claimExpire ⟨deviceId, cmdqueue, now, dev⟩))
    (hcommands : s.commands = db0.commands) (hdevices : s.devices = db0.devices)
    (hstart : db.commands.commit t = s.commands) (hlock : db.devices.commit t = s.devices)
    (hdev : (s.devices.cells deviceId).committed = some dev) (happroved : dev.status = .approved) :
    Ends db0 t db (s.claim deviceId cmdqueue now) := by
  rw [Fleet.claim, hdev]
  dsimp only
  rw [if_neg (not_not.mpr happroved)]
  rcases h.exec rfl hcommands hdevices with
    ⟨hexpire, hends⟩ | ⟨ids, db1, hexpire, hstep1, h1, hsame1, -⟩
  · rw [hstart] at hexpire
    rw [hexpire]
    exact hends
  rw [hstart] at hexpire
  rw [hexpire]
  dsimp only
  refine .head hstep1 ?_
  rcases claimPending_spec h1 hcommands hdevices with
    ⟨hinsert, hends⟩ | ⟨db2, hinsert, hreach2, h2, hsame2⟩
  · rw [hinsert]
    exact hends
  rw [hinsert]
  dsimp only
  apply hreach2
  rcases claimSelect_spec h2 hcommands hdevices with
    ⟨hsend, hends⟩ | ⟨ids, db3, hsend, hreach3, h3, hsame3, hrows⟩
  · rw [hsend]
    exact hends
  rw [hsend]
  dsimp only
  apply hreach3
  have hlock3 : s.devices = db3.devices.commit t := by
    rw [hsame3, hsame2, hsame1, hlock]
  obtain ⟨devices, hdevice, hends⟩ := claimDevice_ends
    (s := { s with commands := db3.commands.commit t }) h3 rfl hlock3 hrows
  rw [hdevice]
  exact hends

end claim

/-! ## The enqueue -/

section enqueue
variable {t : Nat} {db0 db : CommandDb} {d : EnqueueData} {s : Fleet}

theorem enqueueCommit_ends (h : InTx db0 t db (.enqueueCommit d))
    (hcommands : s.commands = db.commands.commit t) (hdevices : s.devices = db.devices.commit t) :
    Ends db0 t db ([], s) := by
  refine .head h.step (.last (if_pos rfl) ⟨?_, ?_, ?_⟩)
  · rw [hcommands]
    rfl
  · rw [hdevices]
    rfl
  · rw [List.map_nil, List.append_nil]
    exact h.events

theorem enqueueSelect_ends {dev : AgentDeviceRow} (h : InTx db0 t db (.enqueueSelect d))
    (hcommands : s.commands = db0.commands) (hdevices : s.devices = db0.devices)
    (hstart : db.commands.commit t = s.commands) (hlock : db.devices.commit t = s.devices)
    (hdev : (s.devices.cells d.deviceId).committed = some dev) (htenant : dev.tenantId = d.tenantId) :
    Ends db0 t db ([], s.enqueue d) := by
  have hopen := h.outstandingIds d.deviceId d.type
  rw [hstart] at hopen
  rw [Fleet.enqueue, hdev]
  dsimp only
  rw [← hopen]
  by_cases hnone : db.outstandingIds t d.deviceId d.type = []
  · rw [if_neg (by simp [htenant, hnone])]
    refine .head (h.step.trans (by rw [CommandDb.next, if_pos hnone])) ?_
    have hselected := h.setTx (.enqueueInsert d)
    have hstart1 : (db.setTx t (some (.enqueueInsert d))).commands.commit t = s.commands := hstart
    rcases hselected.insert (fun _ htx => by rw [CommandDb.next, htx])
        (fun htx => by rw [CommandDb.next, htx]) hcommands hdevices with
      ⟨hinsert, hends⟩ | ⟨db1, hinsert, hstep1, h1, hsame1⟩
    · rw [hstart1] at hinsert
      rw [hinsert]
      exact hends
    rw [hstart1] at hinsert
    rw [hinsert]
    dsimp only
    refine .head hstep1 ?_
    have hlock1 : s.devices = db1.devices.commit t := by
      rw [hsame1]
      exact hlock.symm
    by_cases huninstall : d.type = .uninstall
    · obtain ⟨ids, db2, hupdate, hstep2, h2, hsame2⟩ := h1.updateDevice (.enqueueCommit d) hlock1
        (by rw [CommandDb.next, if_pos huninstall])
      rw [if_pos huninstall, hupdate]
      exact .head hstep2 (enqueueCommit_ends h2 (by rw [hsame2]) rfl)
    · rw [if_neg huninstall]
      refine .head (h1.step.trans (by rw [CommandDb.next, if_neg huninstall])) ?_
      exact enqueueCommit_ends (h1.setTx (.enqueueCommit d)) rfl hlock1
  · rw [if_pos (.inr hnone)]
    exact h.rollback (by rw [CommandDb.next, if_neg hnone]) hcommands hdevices

end enqueue

/-! ## The results -/

section results
variable {db : CommandDb} {t : Nat}

theorem lockDevice_spec (hfree : ∀ i, (db.devices.cells i).working = none)
    (p : Nat → AgentDeviceRow → Bool) :
    ∃ ids devices, db.updateDevice (some t) p id = .done (ids, devices) ∧
      ids = db.devices.select none p ∧ devices.commit t = db.devices ∧
      db.devices.During t devices := by
  obtain ⟨ids, devices, htx, hnone, hduring⟩ :=
    (Store.During.refl hfree t).update_keyless Unit p fun _ => id
  rw [Store.During.commit_start hfree t] at hnone
  refine ⟨ids, devices, htx, (update_eq hnone).1, ?_, hduring⟩
  rw [(update_eq hnone).2.1, Store.write_id]

theorem ends_unchanged {s : Fleet} (ht : db.txs t = none) (hcommands : s.commands = db.commands)
    (hdevices : s.devices = db.devices) : Ends db t db ([], s) := by
  refine .last ht ⟨by rw [hcommands], by rw [hdevices], ?_⟩
  rw [List.map_nil, List.append_nil]

/-- Where the transaction begins: on the tables of the fleet, and without a transaction of its
name. -/
structure Fleet.Starts (s : Fleet) (db : CommandDb) (t : Nat) : Prop where
  settled : s.Settled
  commands : s.commands = db.commands
  devices : s.devices = db.devices
  tx : db.txs t = none

theorem Fleet.Starts.commands_settled {s : Fleet} (h : s.Starts db t) (i : Nat) :
    (db.commands.cells i).working = none := by
  rw [← h.commands]
  exact h.settled.commands i

theorem Fleet.Starts.devices_settled {s : Fleet} (h : s.Starts db t) (i : Nat) :
    (db.devices.cells i).working = none := by
  rw [← h.devices]
  exact h.settled.devices i

/-- `claim`, statement by statement, comes to `Fleet.claim`. -/
theorem claim_statements {s : Fleet} (h : s.Starts db t) (deviceId : Nat) (cmdqueue : Bool)
    (now : Int) : ∃ db1, commandStep db (.beginClaim t deviceId cmdqueue now) = some db1 ∧
      Ends db t db1 (s.claim deviceId cmdqueue now) := by
  obtain ⟨ids, devices, htx, hids, hlock, hduring⟩ :=
    lockDevice_spec (t := t) h.devices_settled fun i _ => i == deviceId
  have hstep : commandStep db (.beginClaim t deviceId cmdqueue now) =
      db.lockDevice t (fun i _ => i == deviceId) fun _ dev =>
        if dev.status = .approved then some (.claimExpire ⟨deviceId, cmdqueue, now, dev⟩) else none := by
    simp only [commandStep, h.tx]
  rw [hstep, CommandDb.lockDevice, htx]
  have hmem : ∀ i, i ∈ ids ↔ i = deviceId ∧ ∃ dev, (db.devices.cells i).committed = some dev := by
    intro i
    rw [hids, mem_select, Cell.view_none]
    simp [and_comm]
  cases ids with
  | nil =>
    have hdev : (s.devices.cells deviceId).committed = none := by
      rw [h.devices, Option.eq_none_iff_forall_ne_some]
      intro dev hdev
      exact List.not_mem_nil ((hmem deviceId).mpr ⟨rfl, dev, hdev⟩)
    refine ⟨db, rfl, ?_⟩
    rw [Fleet.claim, hdev]
    exact ends_unchanged h.tx h.commands h.devices
  | cons d rest =>
    obtain ⟨rfl, dev, hdev⟩ := (hmem d).mp List.mem_cons_self
    have hview : (devices.cells d).view (some t) = some dev := by
      rw [← hduring.commit_view, hlock, hdev]
    dsimp only
    rw [hview]
    dsimp only
    by_cases happroved : dev.status = .approved
    · rw [if_pos happroved]
      have hin : InTx db t
          { (db.setTx t (some (.claimExpire ⟨d, cmdqueue, now, dev⟩))) with devices := devices }
          (.claimExpire ⟨d, cmdqueue, now, dev⟩) :=
        ⟨if_pos rfl, .refl h.commands_settled t, hduring, rfl⟩
      refine ⟨_, rfl, claimExpire_ends hin h.commands h.devices ?_ ?_ ?_ happroved⟩
      · rw [h.commands]
        exact Store.During.commit_start h.commands_settled t
      · rw [h.devices]
        exact hlock
      · rw [h.devices]
        exact hdev
    · rw [if_neg happroved]
      refine ⟨db, rfl, ?_⟩
      rw [Fleet.claim, h.devices, hdev]
      dsimp only
      rw [if_pos happroved]
      exact ends_unchanged h.tx h.commands h.devices

/-- `enqueue`, statement by statement, comes to `Fleet.enqueue`. -/
theorem enqueue_statements {s : Fleet} (h : s.Starts db t) (d : EnqueueData) :
    ∃ db1, commandStep db (.beginEnqueue t d) = some db1 ∧ Ends db t db1 ([], s.enqueue d) := by
  obtain ⟨ids, devices, htx, hids, hlock, hduring⟩ := lockDevice_spec (t := t) h.devices_settled
    fun i dev => i == d.deviceId && dev.tenantId == d.tenantId
  have hstep : commandStep db (.beginEnqueue t d) =
      db.lockDevice t (fun i dev => i == d.deviceId && dev.tenantId == d.tenantId) fun _ _ =>
        some (.enqueueSelect d) := by
    simp only [commandStep, h.tx]
  rw [hstep, CommandDb.lockDevice, htx]
  have hmem : ∀ i, i ∈ ids ↔ i = d.deviceId ∧
      ∃ dev, (db.devices.cells i).committed = some dev ∧ dev.tenantId = d.tenantId := by
    intro i
    rw [hids, mem_select, Cell.view_none]
    simp only [Bool.and_eq_true, beq_iff_eq]
    constructor
    · rintro ⟨dev, hdev, hi, htenant⟩
      exact ⟨hi, dev, hdev, htenant⟩
    · rintro ⟨hi, dev, hdev, htenant⟩
      exact ⟨dev, hdev, hi, htenant⟩
  cases ids with
  | nil =>
    refine ⟨db, rfl, ?_⟩
    rw [Fleet.enqueue, h.devices]
    cases hdev : (db.devices.cells d.deviceId).committed with
    | none => exact ends_unchanged h.tx h.commands h.devices
    | some dev =>
      have htenant : dev.tenantId ≠ d.tenantId := by
        intro htenant
        exact List.not_mem_nil ((hmem d.deviceId).mpr ⟨rfl, dev, hdev, htenant⟩)
      dsimp only
      rw [if_pos (.inl htenant)]
      exact ends_unchanged h.tx h.commands h.devices
  | cons i rest =>
    obtain ⟨hi, dev, hdev, htenant⟩ := (hmem i).mp List.mem_cons_self
    have hview : (devices.cells i).view (some t) = some dev := by
      rw [← hduring.commit_view, hlock, hdev]
    dsimp only
    rw [hview]
    have hin : InTx db t { (db.setTx t (some (.enqueueSelect d))) with devices := devices }
        (.enqueueSelect d) :=
      ⟨if_pos rfl, .refl h.commands_settled t, hduring, rfl⟩
    refine ⟨_, rfl, enqueueSelect_ends hin h.commands h.devices ?_ ?_ ?_ htenant⟩
    · rw [h.commands]
      exact Store.During.commit_start h.commands_settled t
    · rw [h.devices]
      exact hlock
    · rw [h.devices, ← hi]
      exact hdev

end results

end Obliguard.Server

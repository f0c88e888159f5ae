import Mathlib.Data.Int.ConditionallyCompleteOrder
import Mathlib.Order.WithBot
import Obliguard.Lib.Lease
import Obliguard.Lib.Runs
import Obliguard.Server.Requests

/-!
# Bans pushed by the apps of the suite

`createFromExternal` and `withdrawExternal` of `ban.service.ts`: a push prolongs the active external ban
of the address, whichever app made it, leaves another active global ban as it is, and makes a new
ban otherwise; a withdrawal deactivates what carries the app's name. The row of an address is a
`Lease` of the app that made it (`pushExternal_lease`, `withdrawExternal_lease`), so the bans that apps
pushed stand as long as the app of the row withdraws last (`externalBans_hold`), and are lost otherwise
(`externalBans_lost`).
-/

namespace Obliguard.Server

open Bans IpValidation Runs

/-! ## The two calls -/

/-- The arguments of `createFromExternal`. -/
structure ExternalPush where
  ip : String
  reason : Option String
  sourceApp : String
  /-- `none` is permanent. -/
  expiresAt : Option Int
  masterTenantId : Nat

/-- `activeGlobal`: the active global rows of an address. -/
def activeGlobal (n : Net) (b : BanRow) : Bool :=
  b.scope == .global && b.isActive && b.target.ip == Inet.ofAddr n.first &&
    b.target.effectivePrefix == n.family.bits

/-- The row that a push finds, an external one first. -/
def currentGlobal (db : Db) (n : Net) : Option BanRow :=
  let rows := db.bans.rows.filter (activeGlobal n)
  (rows.find? fun b => b.banType == .external).or rows.head?

/-- `nextExpires`: the later of the two, a permanent one being the latest. -/
def nextExpires (current pushed : Option Int) : Option Int :=
  match pushed, current with
  | none, _ => none
  | some _, none => none
  | some p, some e => if p > e then some p else some e

/-- A row once it is pushed again. -/
def BanRow.pushedAgain (args : ExternalPush) (b : BanRow) : BanRow :=
  { b with
    expiresAt := nextExpires b.expiresAt args.expiresAt
    originApp := b.originApp.or (some args.sourceApp) }

theorem BanRow.pushedAgain_id (args : ExternalPush) (b : BanRow) : (b.pushedAgain args).id = b.id := rfl

/-- The row of a new external ban. -/
def externalRow (args : ExternalPush) (n : Net) (id : Nat) : BanRow where
  id := id
  target := ⟨Inet.ofAddr n.first, none, by simp⟩
  reason := args.reason
  banType := .external
  scope := .global
  scopeId := none
  tenantId := none
  originTenantId := some args.masterTenantId
  originApp := some args.sourceApp
  originRef := none
  bannedByUserId := none
  expiresAt := args.expiresAt
  isActive := true
  liftedAt := none
  liftReason := none

theorem externalRow_id (args : ExternalPush) (n : Net) (id : Nat) : (externalRow args n id).id = id := rfl

/-- The transaction of `createFromExternal`, with whether the ban is new. Without an active global row
the insert meets no unique key (`uniqueConflict_externalRow`). -/
def pushExternal (args : ExternalPush) (n : Net) (db : Db) : (BanRow × Bool) × Db :=
  match currentGlobal db n with
  | some b =>
    if b.banType = .external then ((b.pushedAgain args, false), { db with
      bans := db.bans.update (fun r => r.id == b.id) (BanRow.pushedAgain args)
        (BanRow.pushedAgain_id args) })
    else ((b, false), db)
  | none => ((externalRow args n db.bans.seq, true), { db with
      bans := db.bans.insert (externalRow args n) (externalRow_id args n) })

def createFromExternal (env : SafetyEnv) (now : Int) (args : ExternalPush) (db : Db) :
    Except ApiError (BanRow × Bool) × Db :=
  match checkBanTarget env args.ip false with
  | .error e => (.error (banTargetError env e args.ip ""), db)
  | .ok t =>
    if isWhitelisted db t.net {} then (.error ⟨409, .ipWhitelisted, "This IP is whitelisted", []⟩, db)
    else
      let pushed := pushExternal args t.net (expireStale db now t.net)
      (.ok pushed.1, pushed.2)

/-- The row is an active external ban of the app. -/
def isExternalOf (n : Net) (sourceApp : String) (b : BanRow) : Bool :=
  b.target.ip == Inet.ofAddr n.first && b.banType == .external && b.originApp == some sourceApp &&
    b.isActive

/-- `withdrawExternal`: the number of rows lifted, or the status, code and text of its error. -/
def withdrawExternal (now : Int) (ip sourceApp : String) (db : Db) :
    Except (Nat × String × String) Nat × Db :=
  match netOfText ip with
  | none => (.error (400, "BAN_SINGLE_IP_REQUIRED", "ip required (single IPv4/IPv6 address)"), db)
  | some n =>
    if n.len ≠ n.family.bits then
      (.error (400, "BAN_SINGLE_IP_REQUIRED", "ip required (single IPv4/IPv6 address)"), db)
    else
      let done := deactivateBans db now
        ((db.bans.rows.filter (isExternalOf n sourceApp)).map (·.id)) .externalWithdraw
      (.ok done.1.length, done.2)

/-! ## Apps on one address -/

inductive ExternalAct
  | push (args : ExternalPush)
  | withdraw (ip sourceApp : String)

def ExternalAct.ip : ExternalAct → String
  | .push args => args.ip
  | .withdraw ip _ => ip

/-- A call of an app, at its instant and with what the server reads from its surroundings. -/
structure ExternalCall where
  act : ExternalAct
  now : Int
  env : SafetyEnv

/-- An expiry as a term, a permanent ban having the last one. -/
def expiryTerm (expiresAt : Option Int) : WithTop Int :=
  match expiresAt with
  | none => ⊤
  | some e => (e : WithTop Int)

/-- The tables, and what apps pushed and did not withdraw since. -/
structure ExternalState where
  db : Db
  standing : List (String × WithTop Int)

/-- The call names the address, and neither the ban pushed nor an active one of the address has reached
its expiry. -/
def ExternalCall.InTime (n : Net) (db : Db) (call : ExternalCall) : Prop :=
  netOfText call.act.ip = some n ∧ n.IsHost ∧
    (match call.act with
      | .push args => (args.expiresAt.all fun e => decide (call.now < e)) = true
      | .withdraw _ _ => True) ∧
    ∀ b ∈ db.bans.rows, sameTarget n b = true → b.isActive = true → b.unexpired call.now = true

/-- The push gets past the target check and the whitelist. -/
def acceptsPush (env : SafetyEnv) (args : ExternalPush) (db : Db) : Bool :=
  match checkBanTarget env args.ip false with
  | .error _ => false
  | .ok t => !isWhitelisted db t.net {}

/-- The state after a call. -/
def ExternalState.call (s : ExternalState) (call : ExternalCall) : ExternalState :=
  match call.act with
  | .push args => ⟨(createFromExternal call.env call.now args s.db).2,
      match (createFromExternal call.env call.now args s.db).1 with
      | .ok _ => s.standing ++ [(args.sourceApp, expiryTerm args.expiresAt)]
      | .error _ => s.standing⟩
  | .withdraw ip sourceApp => ⟨(withdrawExternal call.now ip sourceApp s.db).2,
      s.standing.filter fun p => p.1 ≠ sourceApp⟩

instance (n : Net) (db : Db) (call : ExternalCall) : Decidable (call.InTime n db) := by
  unfold ExternalCall.InTime
  cases call.act <;> infer_instance

/-- A call on the address, before any expiry. -/
def externalStep (n : Net) (s : ExternalState) (call : ExternalCall) : Option ExternalState :=
  if call.InTime n s.db then some (s.call call) else none

/-- One active global row of an address, as the unique key on active rows (migration 032) leaves it: a
global row has neither a scope id nor a tenant. -/
def OneActiveGlobal (n : Net) (db : Db) : Prop :=
  ∀ b ∈ db.bans.rows, ∀ b' ∈ db.bans.rows, activeGlobal n b = true → activeGlobal n b' = true → b = b'

/-- No ban of another type that ends before the push is found in its place, and the app of the row
withdraws after all the others. -/
def ExternalFits (n : Net) (s : ExternalState) (call : ExternalCall) : Prop :=
  match call.act with
  | .push args => acceptsPush call.env args s.db = true → ∀ b ∈ s.db.bans.rows,
      activeGlobal n b = true → b.banType ≠ .external → expiryTerm args.expiresAt ≤ expiryTerm b.expiresAt
  | .withdraw _ sourceApp => ∀ b ∈ s.db.bans.rows, activeGlobal n b = true →
      isExternalOf n sourceApp b = true → ∀ p ∈ s.standing, p.1 = sourceApp

instance (n : Net) (s : ExternalState) (call : ExternalCall) : Decidable (ExternalFits n s call) := by
  unfold ExternalFits
  cases call.act <;> infer_instance

/-- Until when the active global ban of an address lasts, if there is one. -/
def bannedUntil (n : Net) (db : Db) : Option (WithTop Int) :=
  (currentGlobal db n).map fun b => expiryTerm b.expiresAt

/-! ## The row as a lease -/

section rows
variable {db : Db} {n : Net} {b : BanRow} {args : ExternalPush} {now : Int} {app : String}

theorem activeGlobal_iff : activeGlobal n b = true ↔ b.scope = .global ∧ b.isActive = true ∧
    b.target.ip = Inet.ofAddr n.first ∧ b.target.effectivePrefix = n.family.bits := by
  simp only [activeGlobal, Bool.and_eq_true_iff, beq_iff_eq, and_assoc]

theorem mem_currentGlobal (h : currentGlobal db n = some b) : b ∈ db.bans.rows ∧ activeGlobal n b = true := by
  rw [← List.mem_filter]
  rcases Option.or_eq_some_iff.mp h with h | ⟨-, h⟩
  · exact List.mem_of_find?_eq_some h
  · exact List.mem_of_head? h

theorem currentGlobal_eq_none : currentGlobal db n = none ↔
    ∀ b ∈ db.bans.rows, ¬ activeGlobal n b = true := by
  rw [currentGlobal, Option.or_eq_none_iff, List.head?_eq_none_iff, List.filter_eq_nil_iff]
  constructor
  · exact And.right
  · intro h
    refine ⟨?_, h⟩
    rw [List.filter_eq_nil_iff.mpr h]
    rfl

theorem currentGlobal_eq_some (hone : OneActiveGlobal n db) :
    currentGlobal db n = some b ↔ b ∈ db.bans.rows ∧ activeGlobal n b = true := by
  constructor
  · exact mem_currentGlobal
  · rintro ⟨hb, hactive⟩
    cases hcur : currentGlobal db n with
    | none => exact absurd hactive (currentGlobal_eq_none.mp hcur b hb)
    | some b' =>
      obtain ⟨hb', hactive'⟩ := mem_currentGlobal hcur
      rw [hone b hb b' hb' hactive hactive']

theorem uniqueConflict_externalRow (h : currentGlobal db n = none) (id : Nat) :
    uniqueConflict db.bans (externalRow args n id) = false := by
  rw [uniqueConflict, Bool.and_eq_false_iff, List.any_eq_false]
  refine .inr fun r hr hkey => ?_
  simp only [Bool.and_eq_true_iff, beq_iff_eq, activeKey, Prod.mk.injEq] at hkey
  obtain ⟨hactive, hip, hbits, hscope, -⟩ := hkey
  refine currentGlobal_eq_none.mp h r hr (activeGlobal_iff.mpr ⟨hscope, hactive, hip, ?_⟩)
  rw [hbits]
  rfl

theorem expireStale_eq_self (h : ∀ b ∈ db.bans.rows, sameTarget n b = true → b.isActive = true →
    b.unexpired now = true) : expireStale db now n = db := by
  have hnone : db.bans.rows.filter (fun b => sameTarget n b && b.isActive && b.expired now) = [] := by
    rw [List.filter_eq_nil_iff]
    intro b hb hstale
    simp only [Bool.and_eq_true_iff, BanRow.expired_eq, Bool.not_eq_true'] at hstale
    rw [h b hb hstale.1.1 hstale.1.2] at hstale
    exact Bool.noConfusion hstale.2
  rw [expireStale, hnone]
  exact deactivateBans_nil .expiry

/-- How a row holds its address: an external one by the app it names. -/
def holdOf (b : BanRow) : Hold String (WithTop Int) :=
  if b.banType = .external then .leased b.originApp (expiryTerm b.expiresAt)
  else .fixed (expiryTerm b.expiresAt)

theorem term_holdOf (b : BanRow) : (holdOf b).term = expiryTerm b.expiresAt := by
  unfold holdOf
  split <;> rfl

theorem expiryTerm_nextExpires (current pushed : Option Int) :
    expiryTerm (nextExpires current pushed) = expiryTerm current ⊔ expiryTerm pushed := by
  cases pushed with
  | none => simp [nextExpires, expiryTerm]
  | some p =>
    cases current with
    | none => simp [nextExpires, expiryTerm]
    | some e =>
      unfold nextExpires
      dsimp only
      split
      · rename_i hlater
        exact (sup_eq_right.mpr (WithTop.coe_le_coe.mpr (le_of_lt hlater))).symm
      · rename_i hnot
        exact (sup_eq_left.mpr (WithTop.coe_le_coe.mpr (not_lt.mp hnot))).symm

theorem activeGlobal_pushedAgain : activeGlobal n (b.pushedAgain args) = activeGlobal n b := rfl

/-- A push asks for the lease of the address. -/
theorem pushExternal_lease (hone : OneActiveGlobal n db) :
    OneActiveGlobal n (pushExternal args n db).2 ∧
      (currentGlobal (pushExternal args n db).2 n).map holdOf =
        Lease.ask args.sourceApp (expiryTerm args.expiresAt) ((currentGlobal db n).map holdOf) := by
  -- the row that holds the address once it is pushed
  have hlease : ∀ {db' : Db} (row : BanRow), row ∈ db'.bans.rows → activeGlobal n row = true →
      (∀ b ∈ db'.bans.rows, activeGlobal n b = true → b = row) →
        OneActiveGlobal n db' ∧ (currentGlobal db' n).map holdOf = some (holdOf row) := by
    intro db' row hrow hactive hsole
    have hone' : OneActiveGlobal n db' :=
      fun b hb b' hb' h h' => (hsole b hb h).trans (hsole b' hb' h').symm
    refine ⟨hone', ?_⟩
    rw [(currentGlobal_eq_some hone').mpr ⟨hrow, hactive⟩]
    rfl
  unfold pushExternal
  cases hcur : currentGlobal db n with
  | none =>
    have hnone := currentGlobal_eq_none.mp hcur
    refine hlease (externalRow args n db.bans.seq) ?_ (activeGlobal_iff.mpr ⟨rfl, rfl, rfl, rfl⟩) ?_
    · rw [Table.mem_insert]
      exact .inr rfl
    · intro b hb hactive
      dsimp only at hb
      rw [Table.mem_insert] at hb
      rcases hb with hb | hb
      · exact absurd hactive (hnone b hb)
      · exact hb
  | some b =>
    obtain ⟨hb, hactive⟩ := mem_currentGlobal hcur
    by_cases hext : b.banType = .external
    · have hhold : Lease.ask args.sourceApp (expiryTerm args.expiresAt) (some (holdOf b)) =
          some (holdOf (b.pushedAgain args)) := by
        have hext' : (b.pushedAgain args).banType = .external := hext
        rw [holdOf, holdOf, if_pos hext, if_pos hext', Lease.ask, BanRow.pushedAgain,
          expiryTerm_nextExpires]
      rw [Option.map_some, hhold]
      dsimp only
      rw [if_pos hext]
      refine hlease _ ?_ (activeGlobal_pushedAgain.trans hactive) ?_
      · rw [Table.mem_update]
        exact ⟨b, hb, if_pos (beq_self_eq_true b.id)⟩
      · intro r hr hractive
        dsimp only at hr
        rw [Table.mem_update] at hr
        obtain ⟨a, ha, rfl⟩ := hr
        by_cases hid : (a.id == b.id) = true
        · rw [if_pos hid, Table.eq_of_key ha hb (beq_iff_eq.mp hid)]
        · rw [if_neg hid] at hractive
          exact absurd (by rw [hone a ha b hb hractive hactive]; exact beq_self_eq_true b.id) hid
    · have hfixed : Lease.ask args.sourceApp (expiryTerm args.expiresAt) (some (holdOf b)) =
          some (holdOf b) := by
        rw [holdOf, if_neg hext, Lease.ask]
      rw [Option.map_some, hfixed]
      dsimp only
      rw [if_neg hext]
      exact hlease b hb hactive fun r hr h => hone r hr b hb h hactive

/-- A withdrawal gives the lease up. -/
theorem withdrawExternal_lease {ip : String} (hip : netOfText ip = some n) (hn : n.IsHost)
    (hone : OneActiveGlobal n db) :
    OneActiveGlobal n (withdrawExternal now ip app db).2 ∧
      (currentGlobal (withdrawExternal now ip app db).2 n).map holdOf =
        Lease.giveUp app ((currentGlobal db n).map holdOf) := by
  obtain ⟨ids, hids⟩ : ∃ ids, ids = (db.bans.rows.filter (isExternalOf n app)).map (·.id) := ⟨_, rfl⟩
  have hrun : (withdrawExternal now ip app db).2 = (deactivateBans db now ids .externalWithdraw).2 := by
    have hlen : n.len = n.family.bits := hn
    rw [withdrawExternal, hip, hids]
    dsimp only
    rw [if_neg (not_not.mpr hlen)]
  have hsub : ∀ b ∈ (deactivateBans db now ids .externalWithdraw).2.bans.rows, activeGlobal n b = true →
      b ∈ db.bans.rows ∧ isExternalOf n app b = false := by
    intro b hb hactive
    obtain ⟨hmem, hid⟩ := active_of_mem_deactivateBans hb (activeGlobal_iff.mp hactive).2.1
    rw [hids, Table.key_mem_map_filter hmem, Bool.not_eq_true] at hid
    exact ⟨hmem, hid⟩
  have hone' : OneActiveGlobal n (deactivateBans db now ids .externalWithdraw).2 :=
    fun b hb b' hb' h h' => hone b (hsub b hb h).1 b' (hsub b' hb' h').1 h h'
  rw [hrun]
  refine ⟨hone', ?_⟩
  cases hcur : currentGlobal db n with
  | none =>
    have hnone : currentGlobal (deactivateBans db now ids .externalWithdraw).2 n = none :=
      currentGlobal_eq_none.mpr fun b hb h => currentGlobal_eq_none.mp hcur b (hsub b hb h).1 h
    rw [hnone]
    rfl
  | some b =>
    obtain ⟨hb, hactive⟩ := mem_currentGlobal hcur
    obtain ⟨-, hisActive, hbip, -⟩ := activeGlobal_iff.mp hactive
    rw [Option.map_some]
    by_cases hown : isExternalOf n app b = true
    · have hnone : currentGlobal (deactivateBans db now ids .externalWithdraw).2 n = none := by
        rw [currentGlobal_eq_none]
        intro r hr hractive
        obtain ⟨hmem, hnot⟩ := hsub r hr hractive
        rw [hone r hmem b hb hractive hactive, hown] at hnot
        contradiction
      simp only [isExternalOf, Bool.and_eq_true_iff, beq_iff_eq] at hown
      rw [hnone, holdOf, if_pos hown.1.1.2, hown.1.2, Lease.giveUp, if_pos rfl]
      rfl
    · have hkeeps : b ∈ (deactivateBans db now ids .externalWithdraw).2.bans.rows := by
        refine mem_deactivateBans_of_not_mem hb ?_
        rwa [hids, Table.key_mem_map_filter hb]
      rw [(currentGlobal_eq_some hone').mpr ⟨hkeeps, hactive⟩]
      refine (Lease.giveUp_of_ne fun u hu => hown ?_).symm
      have hhold : holdOf b = .leased (some app) u := Option.some.inj hu
      unfold holdOf at hhold
      split at hhold
      · rename_i hext
        cases horigin : b.originApp with
        | none =>
          rw [horigin] at hhold
          cases hhold
        | some o =>
          rw [horigin] at hhold
          cases hhold
          simp [isExternalOf, hbip, hext, horigin, hisActive]
      · contradiction

end rows

/-! ## Runs -/

/-- The state as a lease. -/
def leaseOf (n : Net) (s : ExternalState) : Lease String (WithTop Int) :=
  ⟨(currentGlobal s.db n).map holdOf, s.standing⟩

/-- The call as a lease has it; a push that is refused is none. -/
def leaseCall (db : Db) (call : ExternalCall) : Option (LeaseCall String (WithTop Int)) :=
  match call.act with
  | .push args =>
    if acceptsPush call.env args db then some (.ask args.sourceApp (expiryTerm args.expiresAt)) else none
  | .withdraw _ sourceApp => some (.giveUp sourceApp)

def leaseStep (s : Lease String (WithTop Int)) : Option (LeaseCall String (WithTop Int)) →
    Lease String (WithTop Int)
  | some c => s.step c
  | none => s

section runs
variable {n : Net} {s s' t t' : ExternalState} {call : ExternalCall} {calls : List ExternalCall}
  {args : ExternalPush} {db db' : Db}

theorem acceptsPush_congr (h : db'.whitelist = db.whitelist) (env : SafetyEnv) :
    acceptsPush env args db' = acceptsPush env args db := by
  unfold acceptsPush isWhitelisted
  rw [h]

theorem leaseCall_congr (h : db'.whitelist = db.whitelist) : leaseCall db' call = leaseCall db call := by
  unfold leaseCall
  cases call.act with
  | push args =>
    dsimp only
    rw [acceptsPush_congr h]
  | withdraw ip app => rfl

theorem pushExternal_whitelist : (pushExternal args n db).2.whitelist = db.whitelist := by
  unfold pushExternal
  split
  · split <;> rfl
  · rfl

theorem createFromExternal_accepted {env : SafetyEnv} {now : Int} (hip : netOfText args.ip = some n)
    (hunexpired : ∀ b ∈ db.bans.rows, sameTarget n b = true → b.isActive = true → b.unexpired now = true)
    (h : acceptsPush env args db = true) :
    createFromExternal env now args db = (.ok (pushExternal args n db).1, (pushExternal args n db).2) := by
  unfold acceptsPush at h
  unfold createFromExternal
  cases hcheck : checkBanTarget env args.ip false with
  | error e =>
    rw [hcheck] at h
    contradiction
  | ok t =>
    obtain rfl : t.net = n := Option.some.inj ((checkBanTarget_net hcheck).1.symm.trans hip)
    rw [hcheck] at h
    dsimp only at h ⊢
    rw [if_neg (by simpa using h), expireStale_eq_self hunexpired]

theorem createFromExternal_refused {env : SafetyEnv} {now : Int} (h : ¬ acceptsPush env args db = true) :
    ∃ e, createFromExternal env now args db = (.error e, db) := by
  unfold acceptsPush at h
  unfold createFromExternal
  cases hcheck : checkBanTarget env args.ip false with
  | error e => exact ⟨_, rfl⟩
  | ok t =>
    rw [hcheck] at h
    dsimp only at h ⊢
    exact ⟨_, if_pos (by simpa using h)⟩

theorem externalStep_lease (hone : OneActiveGlobal n s.db) (h : externalStep n s call = some s') :
    OneActiveGlobal n s'.db ∧ s'.db.whitelist = s.db.whitelist ∧
      leaseOf n s' = leaseStep (leaseOf n s) (leaseCall s.db call) := by
  unfold externalStep at h
  split at h
  · rename_i htime
    obtain ⟨hip, hn, -, hunexpired⟩ := htime
    obtain rfl := Option.some.inj h
    unfold ExternalState.call leaseCall
    cases hact : call.act with
    | push args =>
      rw [hact] at hip
      dsimp only
      by_cases haccepts : acceptsPush call.env args s.db = true
      · rw [createFromExternal_accepted hip hunexpired haccepts, if_pos haccepts]
        obtain ⟨hone', hlease⟩ := @pushExternal_lease s.db n args hone
        exact ⟨hone', pushExternal_whitelist, congrArg (Lease.mk · _) hlease⟩
      · obtain ⟨e, he⟩ := @createFromExternal_refused args s.db call.env call.now haccepts
        rw [he, if_neg haccepts]
        exact ⟨hone, rfl, rfl⟩
    | withdraw ip app =>
      rw [hact] at hip
      obtain ⟨hone', hlease⟩ := @withdrawExternal_lease s.db n call.now app ip hip hn hone
      refine ⟨hone', ?_, congrArg (Lease.mk · _) hlease⟩
      show (withdrawExternal call.now ip app s.db).2.whitelist = s.db.whitelist
      unfold withdrawExternal
      split
      · rfl
      · split <;> rfl
  · contradiction

theorem meets_of_fits (h : ExternalFits n s call) {c : LeaseCall String (WithTop Int)}
    (hc : leaseCall s.db call = some c) : (leaseOf n s).Meets c := by
  unfold leaseCall at hc
  unfold ExternalFits at h
  cases hact : call.act with
  | push args =>
    rw [hact] at hc h
    dsimp only at hc h
    split at hc
    · rename_i haccepts
      obtain rfl := Option.some.inj hc
      intro u hu
      obtain ⟨b, hb, hhold⟩ := Option.map_eq_some_iff.mp hu
      obtain ⟨hmem, hactive⟩ := mem_currentGlobal hb
      unfold holdOf at hhold
      split at hhold
      · contradiction
      · rename_i hext
        cases hhold
        exact h haccepts b hmem hactive hext
    · contradiction
  | withdraw ip app =>
    rw [hact] at hc h
    obtain rfl := Option.some.inj hc
    intro u hu
    obtain ⟨b, hb, hhold⟩ := Option.map_eq_some_iff.mp hu
    obtain ⟨hmem, hactive⟩ := mem_currentGlobal hb
    obtain ⟨-, hisActive, hbip, -⟩ := activeGlobal_iff.mp hactive
    unfold holdOf at hhold
    split at hhold
    · rename_i hext
      have horigin : b.originApp = some app := by
        injection hhold
      exact h b hmem hactive (by simp [isExternalOf, hbip, hext, horigin, hisActive])
    · contradiction

theorem covered_leaseStep {l : Lease String (WithTop Int)} {o : Option (LeaseCall String (WithTop Int))}
    (hl : l.Covered) (ho : ∀ c, o = some c → l.Meets c) : (leaseStep l o).Covered := by
  cases o with
  | none => exact hl
  | some c => exact Lease.covered_step hl (ho c rfl)

theorem alike_leaseStep {l l' : Lease String (WithTop Int)}
    {o : Option (LeaseCall String (WithTop Int))} (h : l.Alike l') (ho : ∀ c, o = some c → l.Meets c)
    (ho' : ∀ c, o = some c → l'.Meets c) : (leaseStep l o).Alike (leaseStep l' o) := by
  cases o with
  | none => exact h
  | some c => exact Lease.alike_step h (ho c rfl) (ho' c rfl)

theorem external_run (hone : OneActiveGlobal n s.db) (hcovered : (leaseOf n s).Covered)
    (hfits : StepsMeet (externalStep n) (ExternalFits n) s calls)
    (h : run (externalStep n) s calls = some s') :
    OneActiveGlobal n s'.db ∧ s'.db.whitelist = s.db.whitelist ∧ (leaseOf n s').Covered := by
  refine run_invariant (P := fun t => OneActiveGlobal n t.db ∧ t.db.whitelist = s.db.whitelist ∧
    (leaseOf n t).Covered) ?_ ⟨hone, rfl, hcovered⟩ hfits h
  rintro t call t' ⟨ht, hlisted, hcov⟩ hfit hstep
  obtain ⟨ht', hlisted', hlease⟩ := externalStep_lease ht hstep
  refine ⟨ht', hlisted'.trans hlisted, ?_⟩
  rw [hlease]
  exact covered_leaseStep hcov fun c hc => meets_of_fits hfit hc

theorem alike_run (hone : OneActiveGlobal n s.db) (hone' : OneActiveGlobal n s'.db)
    (hlisted : s'.db.whitelist = s.db.whitelist) (halike : (leaseOf n s).Alike (leaseOf n s'))
    (hfits : StepsMeet (externalStep n) (ExternalFits n) s calls)
    (hfits' : StepsMeet (externalStep n) (ExternalFits n) s' calls)
    (h : run (externalStep n) s calls = some t) (h' : run (externalStep n) s' calls = some t') :
    (leaseOf n t).Alike (leaseOf n t') := by
  induction calls generalizing s s' with
  | nil =>
    obtain rfl := Option.some.inj h
    obtain rfl := Option.some.inj h'
    exact halike
  | cons call calls ih =>
    obtain ⟨u, hu, h⟩ := run_cons.mp h
    obtain ⟨u', hu', h'⟩ := run_cons.mp h'
    obtain ⟨hu₁, hlist, hlease⟩ := externalStep_lease hone hu
    obtain ⟨hu₁', hlist', hlease'⟩ := externalStep_lease hone' hu'
    refine ih hu₁ hu₁' (hlist'.trans (hlisted.trans hlist.symm)) ?_ (hfits.2 u hu) (hfits'.2 u' hu') h h'
    rw [hlease, hlease', leaseCall_congr hlisted]
    refine alike_leaseStep halike (fun c hc => meets_of_fits hfits.1 hc) fun c hc => ?_
    exact meets_of_fits hfits'.1 ((leaseCall_congr hlisted).trans hc)

/-- The request of a push that is accepted. -/
def pushRequest (db : Db) (call : ExternalCall) : Option (String × WithTop Int) :=
  match call.act with
  | .push args =>
    if acceptsPush call.env args db then some (args.sourceApp, expiryTerm args.expiresAt) else none
  | .withdraw _ _ => none

theorem pushes_run (hone : OneActiveGlobal n s.db) (hpush : ∀ call ∈ calls, ∃ args, call.act = .push args)
    (h : run (externalStep n) s calls = some s') :
    OneActiveGlobal n s'.db ∧ s'.db.whitelist = s.db.whitelist ∧
      leaseOf n s' = (leaseOf n s).asks (calls.filterMap (pushRequest s.db)) := by
  induction calls generalizing s with
  | nil =>
    obtain rfl := Option.some.inj h
    exact ⟨hone, rfl, rfl⟩
  | cons call calls ih =>
    obtain ⟨⟨args, hact⟩, hpush⟩ := List.forall_mem_cons.mp hpush
    obtain ⟨u, hu, h⟩ := run_cons.mp h
    obtain ⟨hone', hlisted, hlease⟩ := externalStep_lease hone hu
    obtain ⟨hone'', hlisted', hlease'⟩ := ih hone' hpush h
    refine ⟨hone'', hlisted'.trans hlisted, ?_⟩
    have hrequests : calls.filterMap (pushRequest u.db) = calls.filterMap (pushRequest s.db) := by
      refine List.filterMap_congr fun c _ => ?_
      unfold pushRequest
      cases c.act with
      | push args =>
        dsimp only
        rw [acceptsPush_congr hlisted]
      | withdraw ip app => rfl
    rw [hlease', hlease, hrequests]
    unfold leaseCall
    rw [hact]
    dsimp only
    by_cases haccepts : acceptsPush call.env args s.db = true
    · rw [if_pos haccepts, List.filterMap_cons_some (by rw [pushRequest, hact]; exact if_pos haccepts)]
      rfl
    · rw [if_neg haccepts, List.filterMap_cons_none (by rw [pushRequest, hact]; exact if_neg haccepts)]
      rfl

theorem bannedUntil_eq : bannedUntil n s.db = (leaseOf n s).until? := by
  rw [bannedUntil, Lease.until?, leaseOf, Option.map_map]
  congr 1
  funext b
  exact (term_holdOf b).symm

end runs

/-- An address stays banned as long as an app pushed it and did not withdraw it since, until the latest
of the expiries that stand. Pushes made one after the other may be made in any order in which the calls
still fit: the row carries the name of the app that pushed first. -/
theorem externalBans_hold (n : Net) (db : Db) (hone : OneActiveGlobal n db) (calls : List ExternalCall)
    (s : ExternalState) (hfits : StepsMeet (externalStep n) (ExternalFits n) ⟨db, []⟩ calls)
    (h : run (externalStep n) ⟨db, []⟩ calls = some s) :
    (s.standing ≠ [] → ∃ b ∈ s.db.bans.rows, activeGlobal n b = true ∧
      ∀ p ∈ s.standing, p.2 ≤ expiryTerm b.expiresAt) ∧
    ∀ before pushes pushes' after s', calls = before ++ pushes ++ after → pushes.Perm pushes' →
      (∀ call ∈ pushes, ∃ args, call.act = .push args) →
      StepsMeet (externalStep n) (ExternalFits n) ⟨db, []⟩ (before ++ pushes' ++ after) →
      run (externalStep n) ⟨db, []⟩ (before ++ pushes' ++ after) = some s' →
        bannedUntil n s'.db = bannedUntil n s.db := by
  have hempty : (leaseOf n ⟨db, []⟩).Covered := fun hne => absurd rfl hne
  constructor
  · intro hstanding
    obtain ⟨hold, hhold, hcovers⟩ := (external_run hone hempty hfits h).2.2 hstanding
    obtain ⟨b, hb, rfl⟩ := Option.map_eq_some_iff.mp hhold
    obtain ⟨hmem, hactive⟩ := mem_currentGlobal hb
    refine ⟨b, hmem, hactive, ?_⟩
    intro p hp
    rw [← term_holdOf]
    exact hcovers p hp
  · rintro before pushes pushes' after s' rfl hperm hpush hfits' h'
    have hpush' : ∀ call ∈ pushes', ∃ args, call.act = .push args :=
      fun call hcall => hpush call (hperm.mem_iff.mpr hcall)
    obtain ⟨v, hv, hafter⟩ := run_append.mp h
    obtain ⟨u, hu, hblock⟩ := run_append.mp hv
    obtain ⟨v', hv', hafter'⟩ := run_append.mp h'
    obtain ⟨u', hu', hblock'⟩ := run_append.mp hv'
    obtain rfl := Option.some.inj (hu.symm.trans hu')
    obtain ⟨hfitsV, hfitsAfter⟩ := stepsMeet_append.mp hfits
    obtain ⟨-, hfitsAfter'⟩ := stepsMeet_append.mp hfits'
    obtain ⟨honeU, -⟩ := external_run hone hempty (stepsMeet_append.mp hfitsV).1 hu
    obtain ⟨honeV, hlist, hlease⟩ := pushes_run honeU hpush hblock
    obtain ⟨honeV', hlist', hlease'⟩ := pushes_run honeU hpush' hblock'
    have halike : (leaseOf n v).Alike (leaseOf n v') := by
      rw [hlease, hlease']
      exact Lease.alike_asks (hperm.filterMap _)
    have hend := alike_run honeV honeV' (hlist'.trans hlist.symm) halike (hfitsAfter v hv)
      (hfitsAfter' v' hv') hafter hafter'
    rw [bannedUntil_eq, bannedUntil_eq]
    exact hend.until_eq.symm

/-- A push or a withdrawal of one address by an app. -/
def pushedBy (sourceApp : String) (expiresAt : Option Int) : ExternalCall :=
  ⟨.push ⟨"203.0.113.7", none, sourceApp, expiresAt, 1⟩, 0, ⟨none, none, [], [], []⟩⟩

def withdrawnBy (sourceApp : String) : ExternalCall :=
  ⟨.withdraw "203.0.113.7" sourceApp, 0, ⟨none, none, [], [], []⟩⟩

/-- 203.0.113.7. -/
def pushedNet : Net := otherHost

/-- The app that pushed second withdraws: the ban of the first stands, and for the longer time. -/
theorem externalBans_hold_second : ∃ s, run (externalStep pushedNet) ⟨Db.empty, []⟩
    [pushedBy "a" (some 100), pushedBy "b" none, withdrawnBy "b"] = some s ∧
      s.standing = [("a", expiryTerm (some 100))] ∧ ∃ b ∈ s.db.bans.rows, activeGlobal pushedNet b = true ∧
        ∀ p ∈ s.standing, p.2 ≤ expiryTerm b.expiresAt := by
  have hrun : (run (externalStep pushedNet) ⟨Db.empty, []⟩
      [pushedBy "a" (some 100), pushedBy "b" none, withdrawnBy "b"]).map (·.standing) =
        some [("a", expiryTerm (some 100))] := by decide +kernel
  obtain ⟨s, hs, hstanding⟩ := Option.map_eq_some_iff.mp hrun
  have hhold := externalBans_hold pushedNet Db.empty (fun b hb => absurd hb (List.not_mem_nil))
    [pushedBy "a" (some 100), pushedBy "b" none, withdrawnBy "b"] s (by decide +kernel) hs
  exact ⟨s, hs, hstanding, hhold.1 (by rw [hstanding]; exact List.cons_ne_nil _ _)⟩

/-- The app that pushed first withdraws: nothing bans the address, though the second has not withdrawn. -/
theorem externalBans_lost : ∃ n db calls s, OneActiveGlobal n db ∧
    run (externalStep n) ⟨db, []⟩ calls = some s ∧ s.standing ≠ [] ∧
      ∀ b ∈ s.db.bans.rows, ¬ activeGlobal n b = true := by
  have hrun : (run (externalStep pushedNet) ⟨Db.empty, []⟩
      [pushedBy "a" (some 100), pushedBy "b" none, withdrawnBy "a"]).map
        (fun s => (s.standing, s.db.bans.rows.any (activeGlobal pushedNet))) =
        some ([("b", ⊤)], false) := by decide +kernel
  obtain ⟨s, hs, hfinal⟩ := Option.map_eq_some_iff.mp hrun
  rw [Prod.mk.injEq] at hfinal
  refine ⟨pushedNet, Db.empty, _, s, fun b hb => absurd hb List.not_mem_nil, hs, ?_, ?_⟩
  · rw [hfinal.1]
    exact List.cons_ne_nil _ _
  · exact fun b hb => List.any_eq_false.mp hfinal.2 b hb

end Obliguard.Server

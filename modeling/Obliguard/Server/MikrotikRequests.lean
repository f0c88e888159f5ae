import Obliguard.Server.BulkLift
import Obliguard.Server.MikrotikAgreement
import Obliguard.Server.TenantIsolation

/-!
# Operations followed by their pushes

`MikrotikOp.Fits` is a condition on the tables and the operation, for one router, and
`mikrotik_agrees_iff` that the routers hold what they want afterwards just when each of them meets it.
A ban that a tenant's whitelist covers (`mikrotik_disagrees`), that is for one group or agent only, or
whose target the routers refuse, does not.
-/

namespace Obliguard.Server

open Bans IpValidation

/-! ## Rows written -/

/-- The transaction of `create` inserts the ban. -/
def CreateAccepts (db : Db) (now : Int) (c : Caller) (nb : NewBan) : Prop :=
  isWhitelistedOverlapping db nb.target.net (whitelistContextOf nb.scope nb.scopeId nb.tenantId) = false ∧
    findDuplicate (expireStale db now nb.target.net) now nb = none ∧
    uniqueConflict (expireStale db now nb.target.net).bans (manualRow c nb db.bans.seq) = false

/-- The transaction of `promoteToGlobal` widens the ban. -/
def PromoteAccepts (db : Db) (now : Int) (n : Net) (ban : BanRow) : Prop :=
  isWhitelistedOverlapping db n {} = false ∧
    (∀ b ∈ (expireStale db now n).bans.rows, sameTarget n b = true → b.isActive = true →
      b.unexpired now = true → b.scope ≠ .global) ∧
    uniqueConflict (expireStale db now n).bans (ban.promoted n) = false

section writes
variable {db : Db} {now : Int} {env : SafetyEnv} {c : Caller} {checked : Bool}
  {req : CreateBanRequest} {nb : NewBan} {n : Net} {banId : Nat} {t : BanTarget} {ban row : BanRow}

theorem seq_expireStale : (expireStale db now n).bans.seq = db.bans.seq := by
  rw [expireStale, deactivateBans_bans]
  rfl

theorem createChecks_owner (h : createChecks env c now checked req db = .ok nb)
    (hscope : nb.scope ≠ .global) : nb.tenantId ≠ none := by
  by_cases hm : isMasterTenant c.tenantId = true
  · simp only [createChecks, bind_eq_ok] at h
    obtain ⟨-, -, -, -, target, -, scope, hs, -, -, expiry, -, h⟩ := h
    rw [← Except.ok.inj h] at hscope ⊢
    have howned : ∀ {k}, ownedScope db c.tenantId k req.scopeId = .ok scope → scope.2.2 ≠ none := by
      intro k hk
      rw [(ownedScope_tenant hk).2]
      exact Option.some_ne_none _
    unfold banScope at hs
    simp only [hm, if_true] at hs
    split at hs
    · exact absurd (congrArg Prod.fst (Except.ok.inj hs)).symm hscope
    · contradiction
    · exact howned hs
    · exact howned hs
    · exact absurd (congrArg Prod.fst (Except.ok.inj hs)).symm hscope
    · contradiction
  · rw [Bool.not_eq_true] at hm
    rw [(createChecks_tenant hm h).2]
    exact Option.some_ne_none _

theorem createBan_accepts (hnb : createChecks env c now checked req db = .ok nb)
    (h : CreateAccepts db now c nb) :
    (createBan env c now checked req db).1 = .ok (manualRow c nb db.bans.seq) ∧
      Writes db (createBan env c now checked req db).2 now nb.target.net
        (manualRow c nb db.bans.seq) := by
  obtain ⟨hlisted, hdup, hunique⟩ := h
  have hrun : createBan env c now checked req db = (.ok (manualRow c nb db.bans.seq),
      { expireStale db now nb.target.net with
        bans := (expireStale db now nb.target.net).bans.insert (manualRow c nb) (manualRow_id c nb) }) := by
    have hlisted' : isWhitelistedOverlapping (expireStale db now nb.target.net) nb.target.net
        (whitelistContextOf nb.scope nb.scopeId nb.tenantId) = false := hlisted
    simp only [createBan, hnb, insertManual, hlisted', hdup, seq_expireStale, hunique]
    rfl
  refine ⟨by rw [hrun], ?_⟩
  rw [hrun]
  have hfresh : ∀ b ∈ (expireStale db now nb.target.net).bans.rows, b.id ≠ db.bans.seq := by
    intro b hb
    have := ((expireStale db now nb.target.net).bans.bounds b hb).2
    rw [seq_expireStale] at this
    omega
  have hrows : ∀ b, b ∈ ((expireStale db now nb.target.net).bans.insert (manualRow c nb)
      (manualRow_id c nb)).rows ↔ b ∈ (expireStale db now nb.target.net).bans.rows ∧
        b.id ≠ db.bans.seq ∨ b = manualRow c nb db.bans.seq := by
    intro b
    rw [Table.mem_insert, seq_expireStale]
    constructor
    · rintro (hb | hb)
      · exact .inl ⟨hb, hfresh b hb⟩
      · exact .inr hb
    · rintro (⟨hb, -⟩ | hb)
      · exact .inl hb
      · exact .inr hb
  have hsole : ∀ b ∈ (expireStale db now nb.target.net).bans.rows, sameTarget nb.target.net b = true →
      b.isActive = true → b.unexpired now = true → b.scope ≠ .global := by
    intro b hb htarget hactive hunexpired hglobal
    rw [findDuplicate, Option.or_eq_none_iff, List.find?_eq_none] at hdup
    refine hdup.1 b (List.mem_filter.mpr ⟨hb, ?_⟩) (beq_iff_eq.mpr hglobal)
    simp [htarget, hactive, hunexpired]
  exact {
    exclusions := rfl
    whitelist := rfl
    devices := rfl
    closure := rfl
    unsafeIds := rfl
    rows := hrows
    active := rfl
    target := rfl
    tenant := createChecks_owner hnb
    sole := hsole
    self := by
      intro b hb hid
      have := (db.bans.bounds b hb).2
      exact absurd hid (Nat.ne_of_lt this) }

theorem createBan_refuses (hnb : createChecks env c now checked req db = .ok nb)
    (h : ¬ CreateAccepts db now c nb) : (∃ e, (createBan env c now checked req db).1 = .error e) ∧
      (createBan env c now checked req db).2 = expireStale db now nb.target.net := by
  simp only [createBan, hnb, insertManual, seq_expireStale]
  split
  · exact ⟨⟨_, rfl⟩, rfl⟩
  · rename_i hlisted
    split
    · exact ⟨⟨_, rfl⟩, rfl⟩
    · rename_i hdup
      split
      · exact ⟨⟨_, rfl⟩, rfl⟩
      · rename_i hunique
        exact absurd ⟨Bool.eq_false_iff.mpr hlisted, hdup, Bool.eq_false_iff.mpr hunique⟩ h

theorem promoteChecks_spec (h : promoteChecks env c now banId db = .ok t) :
    ∃ ban, db.bans.find banId = some ban ∧ ban.isActive = true ∧ ban.unexpired now = true ∧
      ban.scope ≠ .global ∧ deliveredText true ban = some (String.ofList t.net.text) := by
  simp only [promoteChecks, bind_eq_ok, require_eq_ok] at h
  obtain ⟨-, -, -, -, ban, hfind, -, hactive, -, hscope, target, htarget, -, -, h⟩ := h
  obtain rfl := Except.ok.inj h
  have hban : db.bans.find banId = some ban := by
    cases hf : db.bans.find banId with
    | none =>
      rw [hf] at hfind
      contradiction
    | some b =>
      rw [hf] at hfind
      rw [Except.ok.inj hfind]
  have hparse : parseBanTarget env (banTargetRawFromRow ban.target.ip.text ban.target.cidrPrefix) true =
      .ok target := by
    cases hp : parseBanTarget env (banTargetRawFromRow ban.target.ip.text ban.target.cidrPrefix) true with
    | error e =>
      rw [hp] at htarget
      contradiction
    | ok t' =>
      rw [hp] at htarget
      rw [Except.ok.inj htarget]
  rw [Bool.and_eq_true_iff, BanRow.expired_eq, Bool.not_not] at hactive
  refine ⟨ban, hban, hactive.1, hactive.2, by simpa using hscope, ?_⟩
  rw [deliveredText, Stored.rowTarget, parseIpOrCidr_netOfText, (parseBanTarget_net hparse).1]
  exact congrArg some (targetText_parsedOf target.net)

theorem promoteToGlobal_accepts (ht : promoteChecks env c now banId db = .ok t)
    (hban : db.bans.find banId = some ban) (h : PromoteAccepts db now t.net ban) :
    (promoteToGlobal env c now banId db).1 = .ok (ban.promoted t.net) ∧
      Writes db (promoteToGlobal env c now banId db).2 now t.net (ban.promoted t.net) := by
  obtain ⟨hlisted, hsole, hunique⟩ := h
  obtain ⟨b, hb, hactive, hunexpired, hscope, htext⟩ := promoteChecks_spec ht
  obtain rfl := Option.some.inj (hb.symm.trans hban)
  obtain ⟨hmem, rfl⟩ := Table.find_eq_some.mp hban
  have hmem' : b ∈ (expireStale db now t.net).bans.rows := (mem_expireStale hactive hunexpired).mpr hmem
  have hself : ∀ r ∈ (expireStale db now t.net).bans.rows,
      (r.id == b.id && r.isActive && r.scope != .global) = true ↔ r = b := by
    intro r hr
    constructor
    · intro hp
      simp only [Bool.and_eq_true_iff, beq_iff_eq] at hp
      exact Table.eq_of_key hr hmem' hp.1.1
    · rintro rfl
      simp [hactive, hscope]
  have hfind : (expireStale db now t.net).bans.rows.find? (fun r => r.id == b.id && r.isActive &&
      r.scope != .global) = some b := by
    cases hf : (expireStale db now t.net).bans.rows.find? (fun r => r.id == b.id && r.isActive &&
        r.scope != .global) with
    | none =>
      rw [List.find?_eq_none] at hf
      exact absurd ((hself b hmem').mpr rfl) (hf b hmem')
    | some r =>
      have hp := List.find?_some hf
      rw [(hself r (List.mem_of_find?_eq_some hf)).mp hp]
  have hglobal : ((expireStale db now t.net).bans.rows.any fun r => sameTarget t.net r && r.isActive &&
      r.unexpired now && r.scope == .global) = false := by
    rw [List.any_eq_false]
    intro r hr hp
    simp only [Bool.and_eq_true_iff, beq_iff_eq] at hp
    exact hsole r hr hp.1.1.1 hp.1.1.2 hp.1.2 hp.2
  have hrun : promoteToGlobal env c now b.id db = (.ok (b.promoted t.net),
      { expireStale db now t.net with
        bans := (expireStale db now t.net).bans.update
          (fun r => r.id == b.id && r.isActive && r.scope != .global) (BanRow.promoted t.net)
          (BanRow.promoted_id t.net) }) := by
    have hlisted' : isWhitelistedOverlapping (expireStale db now t.net) t.net {} = false := hlisted
    simp only [promoteToGlobal, ht, promoteRow, hlisted', hglobal, hfind, hunique]
    rfl
  have hrows : ∀ r, r ∈ ((expireStale db now t.net).bans.update
      (fun r => r.id == b.id && r.isActive && r.scope != .global) (BanRow.promoted t.net)
      (BanRow.promoted_id t.net)).rows ↔
        r ∈ (expireStale db now t.net).bans.rows ∧ r.id ≠ b.id ∨ r = b.promoted t.net := by
    intro r
    rw [Table.mem_update]
    constructor
    · rintro ⟨a, ha, rfl⟩
      split
      · rename_i hp
        rw [(hself a ha).mp hp]
        exact .inr rfl
      · rename_i hp
        exact .inl ⟨ha, fun hid => hp ((hself a ha).mpr (Table.eq_of_key ha hmem' hid))⟩
    · rintro (⟨hr, hid⟩ | rfl)
      · refine ⟨r, hr, if_neg fun hp => hid ?_⟩
        rw [(hself r hr).mp hp]
      · exact ⟨b, hmem', if_pos ((hself b hmem').mpr rfl)⟩
  refine ⟨by rw [hrun], ?_⟩
  rw [hrun]
  exact {
    exclusions := rfl
    whitelist := rfl
    devices := rfl
    closure := rfl
    unsafeIds := rfl
    rows := hrows
    active := hactive
    target := rfl
    tenant := fun hne => absurd rfl hne
    sole := hsole
    self := by
      intro r hr hid
      rw [Table.eq_of_key hr hmem hid]
      exact ⟨htext, rfl⟩ }

theorem promoteToGlobal_refuses (ht : promoteChecks env c now banId db = .ok t)
    (hban : db.bans.find banId = some ban) (h : ¬ PromoteAccepts db now t.net ban) :
    (∃ e, (promoteToGlobal env c now banId db).1 = .error e) ∧
      (promoteToGlobal env c now banId db).2 = expireStale db now t.net := by
  simp only [promoteToGlobal, ht, promoteRow]
  split
  · exact ⟨⟨_, rfl⟩, rfl⟩
  · rename_i hlisted
    split
    · exact ⟨⟨_, rfl⟩, rfl⟩
    · rename_i hglobal
      split
      · exact ⟨⟨_, rfl⟩, rfl⟩
      · rename_i b hfind
        split
        · exact ⟨⟨_, rfl⟩, rfl⟩
        · rename_i hunique
          refine absurd ⟨Bool.eq_false_iff.mpr hlisted, ?_, ?_⟩ h
          · intro r hr htarget hactive hunexpired hscope
            exact hglobal (List.any_eq_true.mpr ⟨r, hr, by simp [htarget, hactive, hunexpired, hscope]⟩)
          · have hp := List.find?_some hfind
            simp only [Bool.and_eq_true_iff, beq_iff_eq] at hp
            have hmem := (active_of_mem_deactivateBans (List.mem_of_find?_eq_some hfind) hp.1.2).1
            have hb : db.bans.find banId = some b := Table.find_eq_some.mpr ⟨hmem, hp.1.1⟩
            rw [← Option.some.inj (hb.symm.trans hban)]
            exact Bool.eq_false_iff.mpr hunique

end writes

/-! ## The condition -/

/-- The router holds what it wants after the operation and its pushes. -/
def MikrotikOp.Fits (takes : String → Bool) (db : Db) (now : Int) (d : Device) : MikrotikOp → Prop
  | .create env c checked req => ∀ nb, createChecks env c now checked req db = .ok nb →
      (CreateAccepts db now c nb → WriteFits takes db now d nb.target.net (manualRow c nb db.bans.seq)) ∧
        (¬ CreateAccepts db now c nb → StaleFits db now d nb.target.net 0)
  | .promoteToGlobal env c banId => ∀ t ban, promoteChecks env c now banId db = .ok t →
      db.bans.find banId = some ban →
        (PromoteAccepts db now t.net ban → WriteFits takes db now d t.net (ban.promoted t.net)) ∧
          (¬ PromoteAccepts db now t.net ban → StaleFits db now d t.net 0)
  | .lift c banId => ∀ ban, assertOperatingMembership c = .ok () → writableBan db c banId = some ban →
      (planLift ban c.tenantId = .exclude → WithdrawFits db now d ban ⟨some c.tenantId, none⟩) ∧
        (planLift ban c.tenantId = .deactivate → WithdrawFits db now d ban (mikrotikAudienceOf ban))
  | .excludeForTenant c banId => ∀ ban, assertOperatingMembership c = .ok () →
      db.bans.find banId = some ban → ban.scope = .global → ban.isActive = true →
        WithdrawFits db now d ban ⟨some c.tenantId, none⟩
  | .removeExclusion tenantId banId => ∀ ban,
      (db.exclusions.any fun ex => ex.banId == banId && ex.tenantId == tenantId) = true →
        db.bans.find banId = some ban → ban.isActive = true → RestoreFits takes db now d ban tenantId

section operations
variable {s : MikrotikState} {now : Int} {env : SafetyEnv} {c : Caller} {checked : Bool}
  {req : CreateBanRequest} {banId tenantId : Nat} {ban b : BanRow} {n : Net} {db db' : Db}

theorem Writes.writtenPushes (h : Writes db db' now n b) (hn : ¬ n.IsMapped) :
    deactivatePushes (staleRows db now n) ++ Server.writtenPushes (.ok b) = writePushes db now n b := by
  have htext := deliveredBanTarget_eq (deliveredText_of_sameTarget hn (sameTarget_ofNet h.target))
  rw [Server.writtenPushes, htext, writePushes]

theorem agrees_create (h : s.Agrees now) : (s.after now (.create env c checked req)).Agrees now ↔
    ∀ d ∈ s.devices none, MikrotikOp.Fits (s.takes d.id) s.db now d (.create env c checked req) := by
  show (List.foldl _ { s with db := (createBan env c now checked req s.db).2 }
    (createPushes env c now checked req s.db)).Agrees now ↔ _
  rw [createPushes]
  cases hnb : createChecks env c now checked req s.db with
  | error e =>
    have hrun : (createBan env c now checked req s.db).2 = s.db := by simp only [createBan, hnb]
    rw [hrun]
    refine iff_of_true h fun d hd nb hok => ?_
    rw [hnb] at hok
    contradiction
  | ok nb =>
    have hn := nb.target.not_mapped
    have hfits : ∀ d, MikrotikOp.Fits (s.takes d.id) s.db now d (.create env c checked req) ↔
        (CreateAccepts s.db now c nb →
            WriteFits (s.takes d.id) s.db now d nb.target.net (manualRow c nb s.db.bans.seq)) ∧
          (¬ CreateAccepts s.db now c nb → StaleFits s.db now d nb.target.net 0) := by
      intro d
      rw [MikrotikOp.Fits, hnb]
      constructor
      · exact fun hall => hall nb rfl
      · rintro hone nb' hok
        obtain rfl := Except.ok.inj hok
        exact hone
    simp only [hfits]
    by_cases haccepts : CreateAccepts s.db now c nb
    · obtain ⟨hresult, hwrites⟩ := createBan_accepts hnb haccepts
      rw [hresult, hwrites.writtenPushes hn]
      simp only [haccepts, true_imp_iff, not_true_eq_false, false_imp_iff, and_true]
      exact hwrites.agrees_iff h hn
    · obtain ⟨⟨e, hresult⟩, htables⟩ := createBan_refuses hnb haccepts
      rw [hresult, htables, writtenPushes, List.append_nil]
      simp only [haccepts, false_imp_iff, not_false_eq_true, true_imp_iff, true_and]
      exact agrees_stale_iff h hn

theorem agrees_promoteToGlobal (h : s.Agrees now) :
    (s.after now (.promoteToGlobal env c banId)).Agrees now ↔
      ∀ d ∈ s.devices none, MikrotikOp.Fits (s.takes d.id) s.db now d (.promoteToGlobal env c banId) := by
  show (List.foldl _ { s with db := (promoteToGlobal env c now banId s.db).2 }
    (promotePushes env c now banId s.db)).Agrees now ↔ _
  rw [promotePushes]
  cases ht : promoteChecks env c now banId s.db with
  | error e =>
    have hrun : (promoteToGlobal env c now banId s.db).2 = s.db := by simp only [promoteToGlobal, ht]
    rw [hrun]
    refine iff_of_true h fun d hd t ban hok => ?_
    rw [ht] at hok
    contradiction
  | ok t =>
    have hn := t.not_mapped
    obtain ⟨ban, hban, -⟩ := promoteChecks_spec ht
    have hfits : ∀ d, MikrotikOp.Fits (s.takes d.id) s.db now d (.promoteToGlobal env c banId) ↔
        (PromoteAccepts s.db now t.net ban → WriteFits (s.takes d.id) s.db now d t.net (ban.promoted t.net)) ∧
          (¬ PromoteAccepts s.db now t.net ban → StaleFits s.db now d t.net 0) := by
      intro d
      rw [MikrotikOp.Fits, ht, hban]
      constructor
      · exact fun hall => hall t ban rfl rfl
      · rintro hone t' ban' hok hfind
        obtain rfl := Except.ok.inj hok
        obtain rfl := Option.some.inj hfind
        exact hone
    simp only [hfits]
    by_cases haccepts : PromoteAccepts s.db now t.net ban
    · obtain ⟨hresult, hwrites⟩ := promoteToGlobal_accepts ht hban haccepts
      rw [hresult, hwrites.writtenPushes hn]
      simp only [haccepts, true_imp_iff, not_true_eq_false, false_imp_iff, and_true]
      exact hwrites.agrees_iff h hn
    · obtain ⟨⟨e, hresult⟩, htables⟩ := promoteToGlobal_refuses ht hban haccepts
      rw [hresult, htables, writtenPushes, List.append_nil]
      simp only [haccepts, false_imp_iff, not_false_eq_true, true_imp_iff, true_and]
      exact agrees_stale_iff h hn

theorem planLift_exclude (h : planLift b tenantId = .exclude) : b.scope = .global ∧ b.isActive = true := by
  unfold planLift at h
  repeat' split at h
  all_goals first | contradiction | exact ⟨‹_›, ‹_›⟩

theorem planLift_deactivate_active (h : planLift b tenantId = .deactivate) : b.isActive = true := by
  unfold planLift at h
  repeat' split at h
  all_goals first | contradiction | assumption

theorem deactivatePushes_one {reason : LiftReason} (hb : b ∈ db.bans.rows) (hactive : b.isActive = true) :
    deactivatePushes (deactivateBans db now [b.id] reason).1 =
      [.push (deliveredBanTarget b) .unban (mikrotikAudienceOf b)] := by
  have hdone := (@mem_deactivated_of_mem db now [b.id] reason b hb hactive
    (List.mem_singleton_self b.id)).2
  have hall : ∀ r ∈ (deactivateBans db now [b.id] reason).1, r = b.deactivated now reason := by
    intro r hr
    obtain ⟨a, ha, hid, -, rfl⟩ := mem_deactivated hr
    rw [Table.eq_of_key ha hb (List.mem_singleton.mp hid)]
  have hrows : (deactivateBans db now [b.id] reason).1 = [b.deactivated now reason] := by
    have hnodup := (nodup_deactivated db now [b.id] reason).of_map
    exact List.perm_singleton.mp ((List.perm_ext_iff_of_nodup hnodup (List.nodup_singleton _)).mpr
      fun r => by rw [List.mem_singleton]; exact ⟨hall r, fun hr => hr ▸ hdone⟩)
  rw [hrows]
  rfl

theorem lift_tables (hmember : assertOperatingMembership c = .ok ())
    (hban : writableBan db c banId = some ban) : (lift c now banId db).2 =
      match planLift ban c.tenantId with
      | .refuse _ => db
      | .exclude => addExclusion db ⟨banId, c.tenantId, some c.userId⟩
      | .deactivate => (deactivateBans db now [banId] .lift).2 := by
  obtain ⟨hfind, hteam⟩ := Option.filter_eq_some_iff.mp hban
  simp only [lift, hmember, hfind, hteam, Bool.not_true, Bool.false_eq_true, if_false]
  cases planLift ban c.tenantId <;> rfl

theorem lift_tables_of_none (hban : writableBan db c banId = none) : (lift c now banId db).2 = db := by
  unfold lift
  split
  · rfl
  · split
    · rfl
    · rename_i ban hfind
      have hteam : teamWritable db c ban = false := by
        rw [writableBan, hfind] at hban
        simpa [Option.filter] using hban
      rw [hteam]
      rfl

theorem agrees_lift (h : s.Agrees now) : (s.after now (.lift c banId)).Agrees now ↔
    ∀ d ∈ s.devices none, MikrotikOp.Fits (s.takes d.id) s.db now d (.lift c banId) := by
  show (List.foldl _ { s with db := (lift c now banId s.db).2 } (liftPushes c now banId s.db)).Agrees
    now ↔ _
  rw [liftPushes]
  cases hmember : assertOperatingMembership c with
  | error e =>
    have hrun : (lift c now banId s.db).2 = s.db := by simp only [lift, hmember]
    rw [hrun]
    refine iff_of_true h fun d hd ban hok => ?_
    rw [hmember] at hok
    contradiction
  | ok u =>
    cases hban : writableBan s.db c banId with
    | none =>
      rw [lift_tables_of_none hban]
      refine iff_of_true h fun d hd ban _ hsome => ?_
      rw [hban] at hsome
      contradiction
    | some ban =>
      obtain ⟨hmem, rfl⟩ := Table.find_eq_some.mp (Option.filter_eq_some_iff.mp hban).1
      have hfits : ∀ d, MikrotikOp.Fits (s.takes d.id) s.db now d (.lift c ban.id) ↔
          (planLift ban c.tenantId = .exclude →
              WithdrawFits s.db now d ban ⟨some c.tenantId, none⟩) ∧
            (planLift ban c.tenantId = .deactivate →
              WithdrawFits s.db now d ban (mikrotikAudienceOf ban)) := by
        intro d
        rw [MikrotikOp.Fits, hmember, hban]
        constructor
        · exact fun hall => hall ban rfl rfl
        · rintro hone ban' - hsome
          obtain rfl := Option.some.inj hsome
          exact hone
      simp only [hfits]
      rw [lift_tables hmember hban]
      cases hplan : planLift ban c.tenantId with
      | refuse e =>
        refine iff_of_true h fun d hd => ⟨fun hexclude => ?_, fun hdeactivate => ?_⟩
        · contradiction
        · contradiction
      | exclude =>
        simp only [true_imp_iff, reduceCtorEq, false_imp_iff, and_true]
        exact (withdraws_addExclusion hmem (planLift_exclude hplan).1).agrees_iff h
      | deactivate =>
        simp only [true_imp_iff, reduceCtorEq, false_imp_iff, true_and]
        rw [deactivatePushes_one hmem (planLift_deactivate_active hplan)]
        exact (withdraws_deactivate hmem).agrees_iff h

theorem agrees_excludeForTenant (h : s.Agrees now) :
    (s.after now (.excludeForTenant c banId)).Agrees now ↔
      ∀ d ∈ s.devices none, MikrotikOp.Fits (s.takes d.id) s.db now d (.excludeForTenant c banId) := by
  show (List.foldl _ { s with db := (excludeForTenant c banId s.db).2 } (excludePushes c banId s.db)).Agrees
    now ↔ _
  rw [excludePushes, excludeForTenant]
  cases hmember : assertOperatingMembership c with
  | error e =>
    refine iff_of_true h fun d hd ban hok => ?_
    rw [hmember] at hok
    contradiction
  | ok u =>
    cases hban : s.db.bans.find banId with
    | none =>
      refine iff_of_true h fun d hd ban _ hsome => ?_
      rw [hban] at hsome
      contradiction
    | some ban =>
      obtain ⟨hmem, rfl⟩ := Table.find_eq_some.mp hban
      by_cases haccepts : ban.scope = .global ∧ ban.isActive = true
      · obtain ⟨hglobal, hactive⟩ := haccepts
        have hsee : canSeeBan ban c.tenantId = true := by simp [canSeeBan, hglobal]
        have hfits : ∀ d, MikrotikOp.Fits (s.takes d.id) s.db now d (.excludeForTenant c ban.id) ↔
            WithdrawFits s.db now d ban ⟨some c.tenantId, none⟩ := by
          intro d
          rw [MikrotikOp.Fits, hmember, hban]
          constructor
          · exact fun hall => hall ban rfl rfl hglobal hactive
          · rintro hone ban' - hsome - -
            obtain rfl := Option.some.inj hsome
            exact hone
        simp only [hfits, hsee, hglobal, hactive, Bool.not_true, Bool.false_eq_true, if_false,
          ne_eq, not_true_eq_false]
        exact (withdraws_addExclusion hmem hglobal).agrees_iff h
      · have hrefused : ∃ e, (if (!canSeeBan ban c.tenantId) = true then (.error banNotFoundError, s.db)
            else if ban.scope ≠ .global then (.error ⟨400, .banExcludeGlobalOnly,
              "Only global bans can be excluded per-tenant", []⟩, s.db)
            else if (!ban.isActive) = true then (.error banInactiveError, s.db)
            else (.ok (), addExclusion s.db ⟨ban.id, c.tenantId, some c.userId⟩) :
              Except ApiError Unit × Db) = (.error e, s.db) := by
          split
          · exact ⟨_, rfl⟩
          · split
            · exact ⟨_, rfl⟩
            · split
              · exact ⟨_, rfl⟩
              · rename_i hglobal hactive
                rw [Bool.not_eq_true, Bool.not_eq_false'] at hactive
                exact absurd ⟨not_not.mp hglobal, hactive⟩ haccepts
        obtain ⟨e, hrefused⟩ := hrefused
        simp only [hrefused]
        refine iff_of_true h fun d hd ban' _ hsome hglobal hactive => ?_
        obtain rfl := Option.some.inj (hban.symm.trans hsome)
        exact absurd ⟨hglobal, hactive⟩ haccepts

theorem agrees_removeExclusion (h : s.Agrees now) :
    (s.after now (.removeExclusion tenantId banId)).Agrees now ↔
      ∀ d ∈ s.devices none, MikrotikOp.Fits (s.takes d.id) s.db now d (.removeExclusion tenantId banId) := by
  show (List.foldl _ { s with db := (removeExclusion tenantId banId s.db).2 }
    (removeExclusionPushes tenantId banId s.db)).Agrees now ↔ _
  rw [removeExclusionPushes, removeExclusion]
  by_cases hany : (s.db.exclusions.any fun ex => ex.banId == banId && ex.tenantId == tenantId) = true
  · simp only [hany, if_true]
    -- without an active row nothing is pushed, and nobody wants more than before
    have hquiet : (∀ r ∈ s.db.bans.rows, r.id = banId → r.isActive = false) →
        ({ s with db := withoutExclusion s.db tenantId banId } : MikrotikState).Agrees now := by
      intro hinactive d hd text
      exact (h d hd text).trans (wanted_withoutExclusion_of_inactive hinactive).symm
    cases hban : s.db.bans.find banId with
    | none =>
      have hnone : ∀ r ∈ s.db.bans.rows, r.id ≠ banId := by
        intro r hr hid
        rw [Table.find_eq_some.mpr ⟨hr, hid⟩] at hban
        contradiction
      refine iff_of_true (hquiet fun r hr hid => absurd hid (hnone r hr)) fun d hd ban _ hsome => ?_
      rw [hban] at hsome
      contradiction
    | some ban =>
      obtain ⟨hmem, rfl⟩ := Table.find_eq_some.mp hban
      by_cases hactive : ban.isActive = true
      · have hfits : ∀ d, MikrotikOp.Fits (s.takes d.id) s.db now d (.removeExclusion tenantId ban.id) ↔
            RestoreFits (s.takes d.id) s.db now d ban tenantId := by
          intro d
          rw [MikrotikOp.Fits, hany, hban]
          constructor
          · exact fun hall => hall ban rfl rfl hactive
          · rintro hone ban' - hsome -
            obtain rfl := Option.some.inj hsome
            exact hone
        simp only [hfits, hactive, if_true]
        exact restore_agrees_iff h hmem
      · simp only [hactive]
        refine iff_of_true (hquiet fun r hr hid => ?_) fun d hd ban' _ hsome hactive' => ?_
        · rw [Table.eq_of_key hr hmem hid]
          exact Bool.eq_false_iff.mpr hactive
        · obtain rfl := Option.some.inj (hban.symm.trans hsome)
          exact absurd hactive' hactive
  · simp only [hany]
    exact iff_of_true h fun d hd ban hex => absurd hex hany

end operations

/-- An operation and its pushes leave the routers with what they want, and nothing for the next
reconciliation, just when the operation fits each of them. -/
theorem mikrotik_agrees_iff (s : MikrotikState) (now : Int) (op : MikrotikOp) (h : s.Agrees now) :
    ((s.after now op).Agrees now ∧ ∀ d ∈ (s.after now op).devices none,
        (syncDelta (s.after now op).db now d ((s.after now op).held d.id)).add = [] ∧
          (syncDelta (s.after now op).db now d ((s.after now op).held d.id)).remove = []) ↔
      ∀ d ∈ s.devices none, op.Fits (s.takes d.id) s.db now d := by
  rw [and_iff_left_of_imp fun hagrees d hd => fullSync_idle hagrees hd]
  cases op with
  | create env c checked req => exact agrees_create h
  | lift c banId => exact agrees_lift h
  | excludeForTenant c banId => exact agrees_excludeForTenant h
  | removeExclusion tenantId banId => exact agrees_removeExclusion h
  | promoteToGlobal env c banId => exact agrees_promoteToGlobal h

/-- What RouterOS lets into an address list: targets of IPv4. -/
def takesIpv4 (text : String) : Bool := (netOfText text).any (·.family == .v4)

/-- One router of tenant 2, which whitelists one address. -/
def whitelistingRouter : MikrotikState where
  db := { Db.empty with
    whitelist := ⟨[⟨1, otherHost, none, .tenant, none, some 2, none, 0⟩], 2, by decide, Nat.two_pos,
      by decide⟩
    devices := ⟨[⟨1, 2, none, []⟩], 2, by decide, Nat.two_pos, by decide⟩ }
  approved := [1]
  takes := fun _ => takesIpv4
  held := fun _ => []
  held_takes := fun _ _ htext => nomatch htext

/-- An administrator on Default bans an address for everyone. -/
def banForAll (ip : String) : MikrotikOp :=
  .create ⟨none, none, [], [], []⟩ ⟨1, 1, true, true, none⟩ false ⟨some ip, none, none, none, none, none⟩

theorem whitelistingRouter_agrees : whitelistingRouter.Agrees 0 := by
  intro d hd text
  exact Iff.rfl

/-- The ban of another address reaches the router as it should. -/
theorem mikrotik_agrees_iff_banForAll :
    (whitelistingRouter.after 0 (banForAll "198.51.100.7")).held 1 = ["198.51.100.7"] ∧
      ∀ d ∈ whitelistingRouter.devices none,
        (banForAll "198.51.100.7").Fits (whitelistingRouter.takes d.id) whitelistingRouter.db 0 d := by
  have hheld : ∀ d ∈ (whitelistingRouter.after 0 (banForAll "198.51.100.7")).devices none,
      (whitelistingRouter.after 0 (banForAll "198.51.100.7")).held d.id =
        wanted (whitelistingRouter.after 0 (banForAll "198.51.100.7")).db 0 d.id
          (routerGroupIds (whitelistingRouter.after 0 (banForAll "198.51.100.7")).db d) d.tenantId true := by
    decide
  refine ⟨by decide, (mikrotik_agrees_iff whitelistingRouter 0 (banForAll "198.51.100.7")
    whitelistingRouter_agrees).mp ⟨fun d hd text => ?_, by decide⟩⟩
  rw [hheld d hd]

/-- The ban of the whitelisted address is put on the router, and the next reconciliation removes it. -/
theorem mikrotik_disagrees : ∃ s now op, MikrotikState.Agrees s now ∧ ¬ (s.after now op).Agrees now := by
  refine ⟨whitelistingRouter, 0, banForAll "203.0.113.7", whitelistingRouter_agrees, fun h => ?_⟩
  have hrouter : ⟨1, 2, none, []⟩ ∈
      (whitelistingRouter.after 0 (banForAll "203.0.113.7")).devices none := by decide
  have hheld : "203.0.113.7" ∈ (whitelistingRouter.after 0 (banForAll "203.0.113.7")).held 1 := by
    decide
  have hunwanted : "203.0.113.7" ∉ wanted (whitelistingRouter.after 0 (banForAll "203.0.113.7")).db 0 1
      (routerGroupIds (whitelistingRouter.after 0 (banForAll "203.0.113.7")).db ⟨1, 2, none, []⟩) 2
      true := by decide
  exact hunwanted ((h _ hrouter _).mp hheld)

end Obliguard.Server

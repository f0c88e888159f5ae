import Obliguard.Server.RemoteBlocklist

/-!
# What a reconciliation does

The effect of `createRemoteBans` and `reconcileListBans` on the rows of `ip_bans`. A reconciliation
withdraws the bans of the list that `isWithdrawn` names and no other row (`mem_reconcile`,
`active_of_mem_reconcile`); every checked entry of an enforcing list that is not whitelisted is
covered afterwards, by a row that covered it already or by a new one (`reconcile_covers`).
-/

namespace Obliguard.Server

open Bans IpValidation Text

/-! ## Inserts -/

theorem net_remoteRow (o : RemoteOptions) (t : RemoteTarget) (id : Nat) :
    (remoteRow o t id).net = t.target.net := by
  show (Stored.ofNet t.target.net).networkSql.net = t.target.net
  rw [Stored.networkSql_ofNet, Inet.net_ofNet]

theorem net_of_activeKey {a b : BanRow} (h : activeKey a = activeKey b) : a.net = b.net := by
  simp only [activeKey, Prod.mk.injEq] at h
  have hsql : a.target.networkSql = b.target.networkSql := by
    apply Inet.ext
    · show a.target.ip.family = b.target.ip.family
      rw [h.1]
    · show a.target.ip.addr = b.target.ip.addr
      rw [h.1]
    · exact h.2.1
  rw [BanRow.net, hsql]
  rfl

section inserts
variable {o : RemoteOptions} {db : Db} {bans : Table BanRow.id} {b : BanRow}

theorem mem_insertRemote {t : RemoteTarget} (h : b ∈ (insertRemote o bans t).rows) :
    b ∈ bans.rows ∨ b = remoteRow o t bans.seq := by
  unfold insertRemote at h
  split at h
  · exact Or.inl h
  · exact Table.mem_insert.mp h

theorem insertRemote_mono {t : RemoteTarget} (h : b ∈ bans.rows) :
    b ∈ (insertRemote o bans t).rows := by
  unfold insertRemote
  split
  · exact h
  · exact Table.mem_insert.mpr (Or.inl h)

/-- After the insert of a target some active global row has its network: the new row, or the row
that holds its unique key. -/
theorem insertRemote_covers (t : RemoteTarget) :
    globallyCovered (insertRemote o bans t) t.target.net = true := by
  rw [globallyCovered_iff]
  unfold insertRemote
  split
  · rename_i hconflict
    simp only [uniqueConflict, Bool.and_eq_true, List.any_eq_true, beq_iff_eq] at hconflict
    obtain ⟨-, r, hr, hact, hkey⟩ := hconflict
    have hnet := net_of_activeKey hkey
    have hscope : r.scope = .global := by
      simp only [activeKey, Prod.mk.injEq] at hkey
      exact hkey.2.2.1
    rw [net_remoteRow] at hnet
    exact ⟨r, hr, hact, hscope, hnet.ge⟩
  · exact ⟨_, Table.mem_insert.mpr (Or.inr rfl), rfl, rfl, (net_remoteRow o t _).ge⟩

theorem mem_foldl_insertRemote {ts : List RemoteTarget} (h : b ∈ (ts.foldl (insertRemote o) bans).rows) :
    b ∈ bans.rows ∨ ∃ t ∈ ts, ∃ id, b = remoteRow o t id := by
  induction ts generalizing bans with
  | nil => exact Or.inl h
  | cons t ts ih =>
    rcases ih h with h | ⟨u, hu, id, rfl⟩
    · rcases mem_insertRemote h with h | rfl
      · exact Or.inl h
      · exact Or.inr ⟨t, by simp, _, rfl⟩
    · exact Or.inr ⟨u, by simp [hu], id, rfl⟩

theorem foldl_insertRemote_mono {ts : List RemoteTarget} (h : b ∈ bans.rows) :
    b ∈ (ts.foldl (insertRemote o) bans).rows := by
  induction ts generalizing bans with
  | nil => exact h
  | cons t ts ih => exact ih (insertRemote_mono h)

theorem globallyCovered_mono {bans' : Table BanRow.id} {n : Net}
    (hsub : ∀ b ∈ bans.rows, b ∈ bans'.rows) (h : globallyCovered bans n = true) :
    globallyCovered bans' n = true := by
  rw [globallyCovered_iff] at h ⊢
  obtain ⟨b, hb, h⟩ := h
  exact ⟨b, hsub b hb, h⟩

theorem foldl_insertRemote_covers {ts : List RemoteTarget} {t : RemoteTarget} (h : t ∈ ts) :
    globallyCovered (ts.foldl (insertRemote o) bans) t.target.net = true := by
  induction ts generalizing bans with
  | nil => contradiction
  | cons u ts ih =>
    rcases List.mem_cons.mp h with rfl | h
    · rw [List.foldl_cons]
      exact globallyCovered_mono (fun b => foldl_insertRemote_mono) (insertRemote_covers t)
    · exact ih h

theorem foldl_insertRemoteChunk_frame (cs : List (List RemoteTarget)) :
    cs.foldl (insertRemoteChunk o) db = { db with
      bans := (cs.foldl (insertRemoteChunk o) db).bans } := by
  induction cs generalizing db with
  | nil => rfl
  | cons c cs ih =>
    rw [List.foldl_cons]
    exact ih

theorem mem_foldl_insertRemoteChunk {cs : List (List RemoteTarget)}
    (h : b ∈ (cs.foldl (insertRemoteChunk o) db).bans.rows) :
    b ∈ db.bans.rows ∨ ∃ c ∈ cs, ∃ t ∈ c, ∃ id, b = remoteRow o t id := by
  induction cs generalizing db with
  | nil => exact Or.inl h
  | cons c cs ih =>
    rcases ih h with h | ⟨d, hd, h⟩
    · rcases mem_foldl_insertRemote h with h | ⟨t, ht, h⟩
      · exact Or.inl h
      · exact Or.inr ⟨c, by simp, t, List.mem_of_mem_filter ht, h⟩
    · exact Or.inr ⟨d, by simp [hd], h⟩

theorem foldl_insertRemoteChunk_mono {cs : List (List RemoteTarget)} (h : b ∈ db.bans.rows) :
    b ∈ (cs.foldl (insertRemoteChunk o) db).bans.rows := by
  induction cs generalizing db with
  | nil => exact h
  | cons c cs ih => exact ih (foldl_insertRemote_mono h)

theorem foldl_insertRemoteChunk_covers (ho : o.respectLifts = false) {cs : List (List RemoteTarget)}
    {c : List RemoteTarget} (hc : c ∈ cs) {t : RemoteTarget} (ht : t ∈ c)
    (hw : isWhitelisted db t.target.net o.whitelist = false) :
    globallyCovered (cs.foldl (insertRemoteChunk o) db).bans t.target.net = true := by
  induction cs generalizing db with
  | nil => contradiction
  | cons d cs ih =>
    rcases List.mem_cons.mp hc with rfl | hc
    · rw [List.foldl_cons]
      refine globallyCovered_mono (fun b => foldl_insertRemoteChunk_mono) ?_
      by_cases hcov : globallyCovered db.bans t.target.net = true
      · exact globallyCovered_mono (fun b => foldl_insertRemote_mono) hcov
      · apply foldl_insertRemote_covers
        simp only [Bool.not_eq_true] at hcov
        exact List.mem_filter.mpr ⟨ht, by simp [importable, hcov, hw, ho]⟩
    · exact ih hc hw

end inserts

/-! ## Entries -/

/-- An entry as every sync stores it: the network itself, never IPv4-mapped. -/
def IsCanonical (e : BlockedIp) : Prop := ∃ n : Net, ¬ n.IsMapped ∧ e.ip = Inet.ofNet n

theorem netOfText_castText (i : Inet) :
    netOfText (String.ofList i.castText) = targetOf i.host i.masklen i.masklen_le := by
  have hchars : ∀ c ∈ i.castText, IsTargetChar c := by
    intro c hc
    rcases List.mem_append.mp hc with hc | hc
    · exact Inet.isTargetChar_addrText i.host c hc
    · rcases List.mem_cons.mp hc with rfl | hc
      · exact Or.inl rfl
      · exact Inet.isTargetChar_toDigits _ c hc
  rw [netOfText, String.toList_ofList, jsTrim_targetChars hchars, Inet.readTarget_castText]

theorem entryCheck_net {env : SafetyEnv} {e : BlockedIp} {t : BanTarget} (hc : IsCanonical e)
    (h : entryCheck env e = .ok t) : e.ip = Inet.ofNet t.net := by
  obtain ⟨n, hn, hip⟩ := hc
  have hnet := (checkBanTarget_net h).1
  rw [netOfText_castText, hip] at hnet
  have hself : targetOf (Inet.ofNet n).host (Inet.ofNet n).masklen (Inet.ofNet n).masklen_le = some n :=
    targetOf_first hn
  rw [hself] at hnet
  rw [hip, Option.some.inj hnet]

section writes
variable {listId : Nat} {entries : Table BlockedIp.id} {e : BlockedIp}

theorem mem_upsertEntry {w : EntryWrite listId} (h : e ∈ (upsertEntry entries w).rows) :
    (∃ f ∈ entries.rows, SameEntry f e) ∨
      ((∃ id, e = w.fresh id) ∧ ∀ f ∈ entries.rows, isEntryOf listId w.target.net f = false) := by
  unfold upsertEntry at h
  split at h
  · obtain ⟨f, hf, rfl⟩ := Table.mem_update.mp h
    refine Or.inl ⟨f, hf, ?_⟩
    split
    · exact w.merge_same f
    · exact ⟨rfl, rfl, rfl, rfl⟩
  · rename_i hany
    rcases Table.mem_insert.mp h with h | rfl
    · exact Or.inl ⟨e, h, rfl, rfl, rfl, rfl⟩
    · exact Or.inr ⟨⟨_, rfl⟩, by simpa using hany⟩

theorem mem_upsertEntry_other {w : EntryWrite listId} (hl : e.blocklistId ≠ listId) :
    e ∈ (upsertEntry entries w).rows ↔ e ∈ entries.rows := by
  unfold upsertEntry
  split
  · rw [Table.mem_update]
    constructor
    · rintro ⟨f, hf, rfl⟩
      split
      · rename_i hkey
        rw [if_pos hkey, (w.merge_same f).blocklistId] at hl
        simp only [isEntryOf, Bool.and_eq_true, beq_iff_eq] at hkey
        exact absurd hkey.1 hl
      · exact hf
    · intro he
      exact ⟨e, he, if_neg (by simp [isEntryOf, hl])⟩
  · rw [Table.mem_insert]
    constructor
    · rintro (h | rfl)
      · exact h
      · exact absurd (w.fresh_key _).1 hl
    · exact Or.inl

theorem mem_foldl_upsertEntry_other {ws : List (EntryWrite listId)} (hl : e.blocklistId ≠ listId) :
    e ∈ (ws.foldl upsertEntry entries).rows ↔ e ∈ entries.rows := by
  induction ws generalizing entries with
  | nil => rfl
  | cons w ws ih => rw [List.foldl_cons, ih, mem_upsertEntry_other hl]

theorem mem_syncEntries_other {now : Int} {list : Blocklist} {ws : List (EntryWrite list.id)}
    (hl : e.blocklistId ≠ list.id) : e ∈ (syncEntries now list ws entries).rows ↔ e ∈ entries.rows := by
  unfold syncEntries
  dsimp only
  split
  · rw [Table.mem_delete, mem_foldl_upsertEntry_other hl]
    simp [hl]
  · exact mem_foldl_upsertEntry_other hl

theorem mem_syncEntries {now : Int} {list : Blocklist} {ws : List (EntryWrite list.id)}
    (h : e ∈ (syncEntries now list ws entries).rows) : (∃ f ∈ entries.rows, SameEntry f e) ∨
      ∃ w ∈ ws, e.ip = Inet.ofNet w.target.net ∧
        ∀ f ∈ entries.rows, isEntryOf list.id w.target.net f = false := by
  have hfold : ∀ (ws : List (EntryWrite list.id)) (entries : Table BlockedIp.id) (e : BlockedIp),
      e ∈ (ws.foldl upsertEntry entries).rows → (∃ f ∈ entries.rows, SameEntry f e) ∨
        ∃ w ∈ ws, e.ip = Inet.ofNet w.target.net ∧
          ∀ f ∈ entries.rows, isEntryOf list.id w.target.net f = false := by
    intro ws
    induction ws with
    | nil => exact fun entries e h => Or.inl ⟨e, h, rfl, rfl, rfl, rfl⟩
    | cons w ws ih =>
      intro entries e h
      -- an entry of the old table survives the first write with its key
      have hkeep : ∀ f ∈ entries.rows, ∃ g ∈ (upsertEntry entries w).rows, SameEntry f g := by
        intro f hf
        unfold upsertEntry
        split
        · refine ⟨_, Table.mem_update.mpr ⟨f, hf, rfl⟩, ?_⟩
          split
          · exact w.merge_same f
          · exact ⟨rfl, rfl, rfl, rfl⟩
        · exact ⟨f, Table.mem_insert.mpr (Or.inl hf), rfl, rfl, rfl, rfl⟩
      rcases ih _ e h with ⟨f, hf, hsame⟩ | ⟨v, hv, hip, hfree⟩
      · rcases mem_upsertEntry hf with ⟨g, hg, hsame'⟩ | ⟨⟨id, rfl⟩, hfree⟩
        · exact Or.inl ⟨g, hg, hsame.id.trans hsame'.id, hsame.blocklistId.trans hsame'.blocklistId,
            hsame.ip.trans hsame'.ip, hsame.enabled.trans hsame'.enabled⟩
        · exact Or.inr ⟨w, by simp, hsame.ip.trans (w.fresh_key id).2, hfree⟩
      · refine Or.inr ⟨v, by simp [hv], hip, ?_⟩
        intro f hf
        obtain ⟨g, hg, hsame⟩ := hkeep f hf
        have := hfree g hg
        rwa [isEntryOf, hsame.blocklistId, hsame.ip] at this
  unfold syncEntries at h
  dsimp only at h
  split at h
  · exact hfold _ _ _ (Table.mem_delete.mp h).1
  · exact hfold _ _ _ h

end writes

/-! ## Reconciliation -/

/-- The bans that a reconciliation of a list withdraws. -/
def isWithdrawn (db : Db) (listId : Nat) (b : BanRow) : Bool :=
  if storedEnforce db listId then isStale db.blockedIps listId b else isListBan listId b

theorem isListBan_of_isWithdrawn {db : Db} {listId : Nat} {b : BanRow}
    (h : isWithdrawn db listId b = true) : isListBan listId b = true := by
  unfold isWithdrawn at h
  split at h
  · simp only [isStale, Bool.and_eq_true] at h
    exact h.1
  · exact h

/-- The rows of an imported entry. -/
def IsNewBan (env : SafetyEnv) (db : Db) (list : Blocklist) (b : BanRow) : Prop :=
  ∃ e ∈ db.blockedIps.rows, isBannedEntry list.id e = true ∧ ∃ t, entryCheck env e = .ok t ∧
    ∃ reason id, b = remoteRow (listOptions list) ⟨t, reason⟩ id

section reconcile
variable {env : SafetyEnv} {now : Int} {list : Blocklist} {db : Db} {b : BanRow}

theorem mem_missingTargets {t : RemoteTarget} (h : t ∈ missingTargets env db list) :
    ∃ e ∈ db.blockedIps.rows, isBannedEntry list.id e = true ∧ entryCheck env e = .ok t.target := by
  simp only [missingTargets, List.mem_filterMap, candidates, List.mem_filter, Bool.and_eq_true] at h
  obtain ⟨e, ⟨he, hban, -⟩, h⟩ := h
  refine ⟨e, he, hban, ?_⟩
  split at h
  · rename_i u hu
    rw [hu, ← Option.some.inj h]
  · contradiction

theorem reconcile_frame : reconcileListBans env now list db = { db with
    bans := (reconcileListBans env now list db).bans } := by
  unfold reconcileListBans
  split
  · dsimp only
    rw [createRemoteBans, foldl_insertRemoteChunk_frame, deactivateBans_frame,
      deactivateBans_blockedIps (by simp)]
  · rw [deactivateRemoteBans, deactivateBans_frame, deactivateBans_blockedIps (by simp)]

/-- A row that is not withdrawn stays. -/
theorem mem_reconcile (hb : b ∈ db.bans.rows) (h : isWithdrawn db list.id b = false) :
    b ∈ (reconcileListBans env now list db).bans.rows := by
  unfold isWithdrawn at h
  unfold reconcileListBans
  split
  · rename_i henf
    rw [if_pos henf] at h
    apply foldl_insertRemoteChunk_mono
    apply mem_deactivateBans_of_not_mem hb
    rw [staleIds, Table.key_mem_map_filter hb, h]
    simp
  · rename_i henf
    rw [if_neg henf] at h
    apply mem_deactivateBans_of_not_mem hb
    rw [Table.key_mem_map_filter hb, Bool.not_eq_true]
    exact h

/-- An active row is one that was not withdrawn, or the new ban of an entry. -/
theorem active_of_mem_reconcile (hb : b ∈ (reconcileListBans env now list db).bans.rows)
    (ha : b.isActive = true) : (b ∈ db.bans.rows ∧ isWithdrawn db list.id b = false) ∨
      (storedEnforce db list.id = true ∧ IsNewBan env db list b) := by
  unfold isWithdrawn
  unfold reconcileListBans at hb
  split at hb
  · rename_i henf
    rw [if_pos henf]
    rcases mem_foldl_insertRemoteChunk hb with hb | ⟨c, hc, t, ht, id, rfl⟩
    · obtain ⟨hb, hid⟩ := active_of_mem_deactivateBans hb ha
      rw [staleIds, Table.key_mem_map_filter hb, Bool.not_eq_true] at hid
      exact Or.inl ⟨hb, hid⟩
    · have hmem := (mem_slices (by decide)).mp ⟨c, hc, ht⟩
      obtain ⟨e, he, hban, hcheck⟩ := mem_missingTargets hmem
      rw [deactivateBans_blockedIps (by simp)] at he
      exact Or.inr ⟨henf, e, he, hban, t.target, hcheck, t.reason, id, rfl⟩
  · rename_i henf
    rw [if_neg henf]
    obtain ⟨hb, hid⟩ := active_of_mem_deactivateBans hb ha
    rw [Table.key_mem_map_filter hb, Bool.not_eq_true] at hid
    exact Or.inl ⟨hb, hid⟩

/-- A checked entry of an enforcing list that is not whitelisted is covered by a row that was not
withdrawn or by a new ban. -/
theorem reconcile_covers (henf : storedEnforce db list.id = true) {e : BlockedIp}
    (he : e ∈ db.blockedIps.rows) (hban : isBannedEntry list.id e = true) (hc : IsCanonical e)
    {t : BanTarget} (hcheck : entryCheck env e = .ok t) (hw : isWhitelisted db e.ip.net {} = false) :
    ∃ b ∈ (reconcileListBans env now list db).bans.rows, b.isActive = true ∧ b.scope = .global ∧
      e.ip.net ≤ b.net ∧ ((b ∈ db.bans.rows ∧ isWithdrawn db list.id b = false) ∨
        b.expiresAt = none) := by
  have hnet : e.ip.net = t.net := by rw [entryCheck_net hc hcheck, Inet.net_ofNet]
  have hcover : globallyCovered (reconcileListBans env now list db).bans t.net = true := by
    rw [reconcileListBans, if_pos henf]
    dsimp only
    obtain ⟨db1, hdb1⟩ : ∃ db1, db1 = (deactivateBans db now (staleIds db list.id) .remoteSync).2 :=
      ⟨_, rfl⟩
    rw [← hdb1]
    have hentries : db1.blockedIps = db.blockedIps := by
      rw [hdb1, deactivateBans_blockedIps (by simp)]
    by_cases hcov : (db1.bans.rows.any fun b => b.isActive && b.scope == .global &&
        b.target.networkSql.contains e.ip) = true
    · refine globallyCovered_mono (fun b => foldl_insertRemoteChunk_mono) ?_
      rw [globallyCovered_iff]
      simp only [List.any_eq_true, Bool.and_eq_true, beq_iff_eq, Inet.contains_iff] at hcov
      obtain ⟨b, hb, ⟨hact, hglob⟩, hle⟩ := hcov
      exact ⟨b, hb, hact, hglob, hnet ▸ hle⟩
    · have hmem : (⟨t, some (entryReason list e)⟩ : RemoteTarget) ∈ missingTargets env db1 list := by
        refine List.mem_filterMap.mpr ⟨e, List.mem_filter.mpr ⟨hentries ▸ he, ?_⟩, ?_⟩
        · simp only [Bool.not_eq_true] at hcov
          simp [hban, hcov]
        · rw [hcheck]
      obtain ⟨c, hcs, ht⟩ := (mem_slices (n := remoteInsertChunk) (by decide)).mpr hmem
      refine foldl_insertRemoteChunk_covers rfl hcs ht ?_
      rw [hnet] at hw
      rw [← hw, hdb1]
      rfl
  rw [globallyCovered_iff] at hcover
  obtain ⟨b, hb, hact, hglob, hle⟩ := hcover
  refine ⟨b, hb, hact, hglob, hnet ▸ hle, ?_⟩
  rcases active_of_mem_reconcile hb hact with h | ⟨-, e, -, -, t, -, reason, id, rfl⟩
  · exact Or.inl h
  · exact Or.inr rfl

end reconcile

end Obliguard.Server

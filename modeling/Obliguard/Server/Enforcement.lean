import Obliguard.Lib.Checks
import Obliguard.Lib.Runs
import Obliguard.Server.Reconcile

/-!
# Enforcement of remote blocklists

The runs of the blocklist service: syncs, switches of entries, changes of the enforce flag, new and
deleted lists, expiry, and bans of other origins. `Enforced` is what the service is for: every
wanted entry of an enforcing list is covered by a live global ban, and every active ban of a list
has its entry.

An entry is passed over when any active global row covers it, and nothing looks at it again when
that cover goes. `Undisturbed` is the condition on a step under which this does no harm, and
`run_enforced` the result. `not_enforced_after_off` is a run without it.
-/

namespace Obliguard.Server

open Bans Runs

/-- The tables and the clock. -/
structure ListState where
  db : Db
  now : Int

inductive ListAction
  | sync (listId : Nat) (body : SyncBody)
  | toggle (entryId : Nat) (enabled : Bool) (tenantId : Option Nat)
  | update (listId : Nat) (tenantId : Option Nat) (patch : ListPatch)
  | delete (listId : Nat) (tenantId : Option Nat)
  | create (name url : String) (sourceType : SourceType) (apiKey : Option String)
      (enforce : Option Bool) (tenantId : Option Nat)
  | expireBans
  | pass (time : Int)
  | ban (row : BanRow)

/-- A ban that no remote list is the source of. -/
def isForeignBan (b : BanRow) : Bool :=
  match b.originRef with
  | some (.blocklist _) => b.banType != .remote
  | _ => true

/-- A ban of another origin is inserted, unless its unique key is taken. -/
def insertForeign (bans : Table BanRow.id) (row : BanRow) : Table BanRow.id :=
  if isForeignBan row && !uniqueConflict bans row then
    bans.insert (fun id => { row with id := id }) fun _ => rfl
  else bans

/-- One operation, run to completion. -/
def listStep (env : SafetyEnv) (s : ListState) : ListAction → Option ListState
  | .sync id body => some { s with db := syncOne env s.now id body s.db }
  | .toggle id enabled tenantId => some { s with db := toggleIp env s.now id enabled tenantId s.db }
  | .update id tenantId patch => some { s with db := updateList env s.now id tenantId patch s.db }
  | .delete id tenantId => some { s with db := deleteList s.now id tenantId s.db }
  | .create name url sourceType apiKey enforce tenantId =>
    some { s with db := createList s.db name url sourceType apiKey enforce tenantId }
  | .expireBans => some { s with db := Server.expireBans s.db s.now }
  | .pass time => if s.now ≤ time then some { s with now := time } else none
  | .ban row => some { s with db := { s.db with bans := insertForeign s.db.bans row } }

/-! ## The invariant -/

/-- A ban in force. -/
def IsLive (now : Int) (b : BanRow) : Prop :=
  b.isActive = true ∧ b.scope = .global ∧ b.unexpired now = true

/-- An entry that has to be enforced: its list enforces, it is enabled and `banned`, it passes the
ban-safety check and is not globally whitelisted. -/
structure Wanted (env : SafetyEnv) (db : Db) (e : BlockedIp) : Prop where
  enforce : storedEnforce db e.blocklistId = true
  banned : isBannedEntry e.blocklistId e = true
  safe : ∃ t, entryCheck env e = .ok t
  not_whitelisted : isWhitelisted db e.ip.net {} = false

/-- Some live ban covers the entry. -/
def Covered (db : Db) (now : Int) (e : BlockedIp) : Prop :=
  ∃ b ∈ db.bans.rows, IsLive now b ∧ e.ip.net ≤ b.net

/-- The ban has its entry, in a list that enforces. -/
def Backed (db : Db) (listId : Nat) (b : BanRow) : Prop :=
  storedEnforce db listId = true ∧
    ∃ e ∈ db.blockedIps.rows, isBannedEntry listId e = true ∧ e.ip = b.target.networkSql

/-- Every wanted entry is covered, and every active ban of a list has its entry. -/
structure Enforced (env : SafetyEnv) (s : ListState) : Prop where
  covered : ∀ e ∈ s.db.blockedIps.rows, Wanted env s.db e → Covered s.db s.now e
  backed : ∀ b ∈ s.db.bans.rows, ∀ listId, isListBan listId b = true → Backed s.db listId b

/-- The entries are as the syncs store them, each in an existing list (the foreign key). -/
structure WellFormed (db : Db) : Prop where
  canonical : ∀ e ∈ db.blockedIps.rows, IsCanonical e
  owner : ∀ e ∈ db.blockedIps.rows, ∃ l ∈ db.blocklists.rows, l.id = e.blocklistId

/-! ## The condition -/

/-- A reconciliation of `listId` on `db` withdraws no last live cover of a wanted entry of another
list, and passes over no wanted entry of its own list that only expired rows cover. -/
structure QuietReconcile (env : SafetyEnv) (now : Int) (db : Db) (listId : Nat) : Prop where
  others : ∀ e ∈ db.blockedIps.rows, e.blocklistId ≠ listId → Wanted env db e → Covered db now e →
    ∃ b ∈ db.bans.rows, IsLive now b ∧ isWithdrawn db listId b = false ∧ e.ip.net ≤ b.net
  own : ∀ e ∈ db.blockedIps.rows, e.blocklistId = listId → Wanted env db e →
    ∀ b ∈ db.bans.rows, b.isActive = true → b.scope = .global → isWithdrawn db listId b = false →
      e.ip.net ≤ b.net →
        ∃ b ∈ db.bans.rows, IsLive now b ∧ isWithdrawn db listId b = false ∧ e.ip.net ≤ b.net

/-- The list a step reconciles, with the tables it reconciles on. -/
def reconciled (env : SafetyEnv) (s : ListState) : ListAction → Option (Blocklist × Db)
  | .sync id body =>
    (s.db.blocklists.find id).bind fun list => (syncWrites env s.now list body).map fun writes =>
      (list, { s.db with blockedIps := syncEntries s.now list writes s.db.blockedIps })
  | .toggle id enabled tenantId =>
    ((switchableList s.db id tenantId).filter (·.enforce)).map fun list =>
      (list, { s.db with blockedIps := switchEntry s.db.blockedIps id enabled })
  | .update id tenantId patch =>
    ((getRow s.db id tenantId).filter fun l => (l.patched patch).enforce != l.enforce).map fun l =>
      (l.patched patch, { s.db with
        blocklists := s.db.blocklists.update (fun r => r.id == l.id) (Blocklist.patched patch)
          (Blocklist.patched_id patch) })
  | _ => none

/-- The condition on a step: no live ban that the step withdraws, or that expires while time
passes, is the last cover of a wanted entry, and no reconciliation passes over a wanted entry that
only expired rows cover. -/
def Undisturbed (env : SafetyEnv) (s : ListState) : ListAction → Prop
  | .pass time => ∀ e ∈ s.db.blockedIps.rows, Wanted env s.db e → Covered s.db s.now e →
      Covered s.db time e
  | .delete id tenantId => ∀ l, getRow s.db id tenantId = some l → ∀ e ∈ s.db.blockedIps.rows,
      e.blocklistId ≠ l.id → Wanted env s.db e → Covered s.db s.now e →
        ∃ b ∈ s.db.bans.rows, IsLive s.now b ∧ isListBan l.id b = false ∧ e.ip.net ≤ b.net
  | a => ∀ list db, reconciled env s a = some (list, db) → QuietReconcile env s.now db list.id

/-! ## Reconciling steps -/

/-- The two states differ in the entries and the flag of one list only. -/
structure SameBut (listId : Nat) (db db' : Db) : Prop where
  bans : db'.bans = db.bans
  whitelist : db'.whitelist = db.whitelist
  entries : ∀ e : BlockedIp, e.blocklistId ≠ listId →
    (e ∈ db'.blockedIps.rows ↔ e ∈ db.blockedIps.rows)
  enforce : ∀ l, l ≠ listId → storedEnforce db' l = storedEnforce db l

section reconcile
variable {env : SafetyEnv} {now : Int} {list : Blocklist} {db db' : Db}

theorem wanted_congr {e : BlockedIp}
    (hf : storedEnforce db' e.blocklistId = storedEnforce db e.blocklistId)
    (hw : db'.whitelist = db.whitelist) (h : Wanted env db' e) : Wanted env db e where
  enforce := hf ▸ h.enforce
  banned := h.banned
  safe := h.safe
  not_whitelisted := by
    have := h.not_whitelisted
    rwa [isWhitelisted, hw] at this

theorem reconcile_blockedIps :
    (reconcileListBans env now list db).blockedIps = db.blockedIps := by
  rw [reconcile_frame]

theorem reconcile_whitelist : (reconcileListBans env now list db).whitelist = db.whitelist := by
  rw [reconcile_frame]

theorem reconcile_storedEnforce (l : Nat) :
    storedEnforce (reconcileListBans env now list db) l = storedEnforce db l := by
  rw [reconcile_frame]
  rfl

theorem isLive_of_not_expiring {b : BanRow} (ha : b.isActive = true) (hg : b.scope = .global)
    (he : b.expiresAt = none) : IsLive now b := by
  refine ⟨ha, hg, ?_⟩
  rw [BanRow.unexpired, he]
  rfl

theorem reconcile_covered (hs : SameBut list.id db db')
    (hcov : ∀ e ∈ db.blockedIps.rows, Wanted env db e → Covered db now e) (hwf : WellFormed db')
    (hq : QuietReconcile env now db' list.id) :
    ∀ e ∈ (reconcileListBans env now list db').blockedIps.rows,
      Wanted env (reconcileListBans env now list db') e →
        Covered (reconcileListBans env now list db') now e := by
  intro e he hwant
  rw [reconcile_blockedIps] at he
  have hwant' : Wanted env db' e :=
    wanted_congr (reconcile_storedEnforce _) reconcile_whitelist hwant
  by_cases hl : e.blocklistId = list.id
  · obtain ⟨t, ht⟩ := hwant'.safe
    obtain ⟨b, hb, hact, hglob, hle, hold | hnew⟩ := reconcile_covers (hl ▸ hwant'.enforce) he
      (hl ▸ hwant'.banned) (hwf.canonical e he) ht hwant'.not_whitelisted
    · obtain ⟨b', hb', hlive, hw', hle'⟩ := hq.own e he hl hwant' b hold.1 hact hglob hold.2 hle
      exact ⟨b', mem_reconcile hb' hw', hlive, hle'⟩
    · exact ⟨b, hb, isLive_of_not_expiring hact hglob hnew, hle⟩
  · have hold : Covered db now e :=
      hcov e ((hs.entries e hl).mp he) (wanted_congr (hs.enforce _ hl) hs.whitelist hwant')
    have hcov' : Covered db' now e := by
      rw [Covered, hs.bans]
      exact hold
    obtain ⟨b, hb, hlive, hw, hle⟩ := hq.others e he hl hwant' hcov'
    exact ⟨b, mem_reconcile hb hw, hlive, hle⟩

theorem isListBan_unique {l l' : Nat} {b : BanRow} (h : isListBan l b = true)
    (h' : isListBan l' b = true) : l = l' := by
  simp only [isListBan, Bool.and_eq_true, beq_iff_eq] at h h'
  have := h.1.1.symm.trans h'.1.1
  simpa [blocklistOriginRef] using this

theorem reconcile_backed (hs : SameBut list.id db db')
    (hback : ∀ b ∈ db.bans.rows, ∀ l, isListBan l b = true → Backed db l b)
    (hwf : WellFormed db') :
    ∀ b ∈ (reconcileListBans env now list db').bans.rows, ∀ l, isListBan l b = true →
      Backed (reconcileListBans env now list db') l b := by
  intro b hb l hlist
  have hact : b.isActive = true := by
    simp only [isListBan, Bool.and_eq_true] at hlist
    exact hlist.2
  rw [Backed, reconcile_storedEnforce, reconcile_blockedIps]
  rcases active_of_mem_reconcile hb hact with ⟨hb, hw⟩ | ⟨henf, e, he, hban, t, ht, reason, id, rfl⟩
  · by_cases hl : l = list.id
    · subst hl
      rw [isWithdrawn] at hw
      by_cases henf : storedEnforce db' list.id = true
      · rw [if_pos henf, isStale, hlist, Bool.true_and, Bool.not_eq_false', List.any_eq_true] at hw
        obtain ⟨e, he, hkey⟩ := hw
        rw [Bool.and_eq_true, beq_iff_eq] at hkey
        exact ⟨henf, e, he, hkey⟩
      · rw [if_neg henf, hlist] at hw
        contradiction
    · rw [hs.bans] at hb
      obtain ⟨henf, e, he, hban, hip⟩ := hback b hb l hlist
      have hel : e.blocklistId = l := by
        simp only [isBannedEntry, Bool.and_eq_true, beq_iff_eq] at hban
        exact hban.1.1
      exact ⟨(hs.enforce l hl).trans henf, e, (hs.entries e (hel ▸ hl)).mpr he, hban, hip⟩
  · have hl : list.id = l := isListBan_unique (by simp [isListBan, remoteRow, listOptions]) hlist
    subst hl
    refine ⟨henf, e, he, hban, ?_⟩
    rw [entryCheck_net (hwf.canonical e he) ht]
    exact (Stored.networkSql_ofNet t.net).symm

end reconcile

/-! ## Steps -/

section steps
variable {env : SafetyEnv} {s s' : ListState} {a : ListAction}

theorem storedEnforce_iff {db : Db} {l : Nat} :
    storedEnforce db l = true ↔ ∃ r ∈ db.blocklists.rows, r.id = l ∧ r.enforce = true := by
  rw [storedEnforce, Option.any_eq_true]
  constructor
  · rintro ⟨r, hr, he⟩
    obtain ⟨hmem, hid⟩ := Table.find_eq_some.mp hr
    exact ⟨r, hmem, hid, he⟩
  · rintro ⟨r, hmem, hid, he⟩
    exact ⟨r, Table.find_eq_some.mpr ⟨hmem, hid⟩, he⟩

theorem getRow_eq_some {db : Db} {id : Nat} {tenantId : Option Nat} {l : Blocklist}
    (h : getRow db id tenantId = some l) : l ∈ db.blocklists.rows ∧ l.id = id := by
  rw [getRow, Option.filter_eq_some_iff] at h
  exact Table.find_eq_some.mp h.1

theorem storedEnforce_update {db db' : Db} {l : Nat} {p : ListPatch}
    (h : db'.blocklists = db.blocklists.update (fun r => r.id == l) (Blocklist.patched p)
      (Blocklist.patched_id p)) {l' : Nat} (hl : l' ≠ l) :
    storedEnforce db' l' = storedEnforce db l' := by
  rw [Bool.eq_iff_iff, storedEnforce_iff, storedEnforce_iff, h]
  constructor
  · rintro ⟨r, hr, hid, he⟩
    obtain ⟨a, ha, rfl⟩ := Table.mem_update.mp hr
    by_cases hk : (a.id == l) = true
    · rw [if_pos hk] at hid
      exact absurd (hid.symm.trans (beq_iff_eq.mp hk)) hl
    · rw [if_neg hk] at hid he
      exact ⟨a, ha, hid, he⟩
  · rintro ⟨r, hr, hid, he⟩
    refine ⟨r, Table.mem_update.mpr ⟨r, hr, if_neg ?_⟩, hid, he⟩
    rw [hid]
    simpa using hl

theorem sameBut_sync {db : Db} {now : Int} {list : Blocklist} {ws : List (EntryWrite list.id)} :
    SameBut list.id db { db with blockedIps := syncEntries now list ws db.blockedIps } where
  bans := rfl
  whitelist := rfl
  entries _ hl := mem_syncEntries_other hl
  enforce _ _ := rfl

theorem wellFormed_sync {db : Db} {now : Int} {list : Blocklist} {ws : List (EntryWrite list.id)}
    (hl : list ∈ db.blocklists.rows) (h : WellFormed db) :
    WellFormed { db with blockedIps := syncEntries now list ws db.blockedIps } where
  canonical e he := by
    rcases mem_syncEntries he with ⟨f, hf, hsame⟩ | ⟨w, -, hip, -⟩
    · obtain ⟨n, hn, hip⟩ := h.canonical f hf
      exact ⟨n, hn, hsame.ip.trans hip⟩
    · exact ⟨w.target.net, w.target.not_mapped, hip⟩
  owner e he := by
    by_cases hel : e.blocklistId = list.id
    · exact ⟨list, hl, hel.symm⟩
    · exact h.owner e ((mem_syncEntries_other hel).mp he)

theorem switchableList_eq_some {db : Db} {id : Nat} {tenantId : Option Nat} {list : Blocklist}
    (h : switchableList db id tenantId = some list) : list ∈ db.blocklists.rows ∧
      ∃ f ∈ db.blockedIps.rows, f.id = id ∧ f.blocklistId = list.id := by
  obtain ⟨f, hf, hrow⟩ := Option.bind_eq_some_iff.mp h
  obtain ⟨hmem, hid⟩ := Table.find_eq_some.mp hf
  obtain ⟨hlist, hlid⟩ := getRow_eq_some hrow
  exact ⟨hlist, f, hmem, hid, hlid.symm⟩

theorem sameBut_switch {db : Db} {id : Nat} {enabled : Bool} {l : Nat} {f : BlockedIp}
    (hf : f ∈ db.blockedIps.rows) (hid : f.id = id) (hl : f.blocklistId = l) :
    SameBut l db { db with blockedIps := switchEntry db.blockedIps id enabled } where
  bans := rfl
  whitelist := rfl
  entries e hel := by
    show e ∈ (switchEntry db.blockedIps id enabled).rows ↔ _
    rw [switchEntry, Table.mem_update]
    constructor
    · rintro ⟨a, ha, rfl⟩
      by_cases hk : (a.id == id) = true
      · have haf : a = f := Table.eq_of_key ha hf ((beq_iff_eq.mp hk).trans hid.symm)
        rw [if_pos hk, haf] at hel
        exact absurd hl hel
      · rw [if_neg hk]
        exact ha
    · intro he
      refine ⟨e, he, if_neg fun hk => hel ?_⟩
      rw [Table.eq_of_key he hf ((beq_iff_eq.mp hk).trans hid.symm)]
      exact hl
  enforce _ _ := rfl

theorem wellFormed_switch {db : Db} {id : Nat} {enabled : Bool} (h : WellFormed db) :
    WellFormed { db with blockedIps := switchEntry db.blockedIps id enabled } := by
  have hold : ∀ e ∈ (switchEntry db.blockedIps id enabled).rows, ∃ a ∈ db.blockedIps.rows,
      e.ip = a.ip ∧ e.blocklistId = a.blocklistId := by
    intro e he
    rw [switchEntry, Table.mem_update] at he
    obtain ⟨a, ha, rfl⟩ := he
    refine ⟨a, ha, ?_⟩
    split
    · exact ⟨rfl, rfl⟩
    · exact ⟨rfl, rfl⟩
  constructor
  · intro e he
    obtain ⟨a, ha, hip, -⟩ := hold e he
    obtain ⟨n, hn, hip'⟩ := h.canonical a ha
    exact ⟨n, hn, hip.trans hip'⟩
  · intro e he
    obtain ⟨a, ha, -, hl⟩ := hold e he
    rw [hl]
    exact h.owner a ha

theorem wellFormed_update {db : Db} {l : Nat} {p : ListPatch} (h : WellFormed db) :
    WellFormed { db with
      blocklists := db.blocklists.update (fun r => r.id == l) (Blocklist.patched p)
        (Blocklist.patched_id p) } where
  canonical := h.canonical
  owner e he := by
    obtain ⟨r, hr, hid⟩ := h.owner e he
    refine ⟨if r.id == l then r.patched p else r, ?_, ?_⟩
    · dsimp only
      rw [Table.mem_update]
      exact ⟨r, hr, rfl⟩
    · split
      · exact hid
      · exact hid

theorem wellFormed_reconcile {db : Db} {now : Int} {list : Blocklist} (h : WellFormed db) :
    WellFormed (reconcileListBans env now list db) := by
  rw [reconcile_frame]
  exact ⟨h.canonical, h.owner⟩

theorem reconciled_spec {list : Blocklist} {db : Db} (h : reconciled env s a = some (list, db)) :
    listStep env s a = some ⟨reconcileListBans env s.now list db, s.now⟩ ∧
      SameBut list.id s.db db ∧ (WellFormed s.db → WellFormed db) := by
  cases a with
  | sync id body =>
    obtain ⟨l, hl, h⟩ := Option.bind_eq_some_iff.mp h
    obtain ⟨ws, hws, h⟩ := Option.map_eq_some_iff.mp h
    obtain ⟨rfl, rfl⟩ := Prod.mk.inj h
    refine ⟨?_, sameBut_sync, wellFormed_sync (Table.find_eq_some.mp hl).1⟩
    simp only [listStep, syncOne, hl, hws]
  | toggle id enabled tenantId =>
    obtain ⟨l, hl, h⟩ := Option.map_eq_some_iff.mp h
    obtain ⟨rfl, rfl⟩ := Prod.mk.inj h
    rw [Option.filter_eq_some_iff] at hl
    obtain ⟨-, f, hf, hid, hfl⟩ := switchableList_eq_some hl.1
    refine ⟨?_, sameBut_switch hf hid hfl, wellFormed_switch⟩
    simp only [listStep, toggleIp, hl.1, hl.2, if_true]
  | update id tenantId patch =>
    obtain ⟨l, hl, h⟩ := Option.map_eq_some_iff.mp h
    obtain ⟨rfl, rfl⟩ := Prod.mk.inj h
    rw [Option.filter_eq_some_iff] at hl
    refine ⟨?_, ?_, wellFormed_update⟩
    · simp only [listStep, updateList, hl.1, hl.2, if_true]
    · exact ⟨rfl, rfl, fun _ _ => Iff.rfl, fun _ hne => storedEnforce_update rfl hne⟩
  | delete | create | expireBans | pass | ban => contradiction

end steps

/-! ## Steps without a reconciliation -/

section quiet
variable {env : SafetyEnv} {db db' : Db} {now : Int}

theorem enforced_congr (hb : db'.bans = db.bans) (he : db'.blockedIps = db.blockedIps)
    (hw : db'.whitelist = db.whitelist) (hf : ∀ l, storedEnforce db' l = storedEnforce db l)
    (h : Enforced env ⟨db, now⟩) : Enforced env ⟨db', now⟩ where
  covered e hmem hwant := by
    simp only at hmem hwant ⊢
    rw [he] at hmem
    rw [Covered, hb]
    exact h.covered e hmem (wanted_congr (hf _) hw hwant)
  backed b hmem l hlist := by
    simp only at hmem ⊢
    rw [hb] at hmem
    rw [Backed, hf, he]
    exact h.backed b hmem l hlist

theorem enforced_sameBut {l : Nat} (hs : SameBut l db db') (hoff : storedEnforce db l = false)
    (hoff' : storedEnforce db' l = false) (h : Enforced env ⟨db, now⟩) : Enforced env ⟨db', now⟩ where
  covered e hmem hwant := by
    simp only at hmem hwant ⊢
    have hl : e.blocklistId ≠ l := by
      intro hl
      rw [← hl, hwant.enforce] at hoff'
      contradiction
    rw [Covered, hs.bans]
    exact h.covered e ((hs.entries e hl).mp hmem) (wanted_congr (hs.enforce _ hl) hs.whitelist hwant)
  backed b hmem l' hlist := by
    simp only at hmem ⊢
    rw [hs.bans] at hmem
    obtain ⟨henf, e, he, hban, hip⟩ := h.backed b hmem l' hlist
    have hl : l' ≠ l := by
      rintro rfl
      rw [henf] at hoff
      contradiction
    have hel : e.blocklistId = l' := by
      simp only [isBannedEntry, Bool.and_eq_true, beq_iff_eq] at hban
      exact hban.1.1
    exact ⟨(hs.enforce l' hl).trans henf, e, (hs.entries e (hel ▸ hl)).mpr he, hban, hip⟩

theorem enforced_bans {bans : Table BanRow.id}
    (hlive : ∀ b ∈ db.bans.rows, IsLive now b → b ∈ bans.rows)
    (hlist : ∀ b ∈ bans.rows, ∀ l, isListBan l b = true → b ∈ db.bans.rows)
    (h : Enforced env ⟨db, now⟩) : Enforced env ⟨{ db with bans := bans }, now⟩ where
  covered e he hwant := by
    have hwant' : Wanted env db e :=
      ⟨hwant.enforce, hwant.banned, hwant.safe, hwant.not_whitelisted⟩
    obtain ⟨b, hb, hb', hle⟩ := h.covered e he hwant'
    exact ⟨b, hlive b hb hb', hb', hle⟩
  backed b hb l hl := h.backed b (hlist b hb l hl) l hl

theorem isActive_of_isListBan {l : Nat} {b : BanRow} (h : isListBan l b = true) :
    b.isActive = true := by
  simp only [isListBan, Bool.and_eq_true] at h
  exact h.2

theorem enforced_expireBans (h : Enforced env ⟨db, now⟩) :
    Enforced env ⟨Server.expireBans db now, now⟩ := by
  rw [Server.expireBans, deactivateBans_frame, deactivateBans_blockedIps (by simp)]
  refine enforced_bans ?_ ?_ h
  · intro b hb hlive
    apply mem_deactivateBans_of_not_mem hb
    rw [Table.key_mem_map_filter hb, BanRow.expired_eq, hlive.2.2]
    simp
  · intro b hb l hlist
    exact (active_of_mem_deactivateBans hb (isActive_of_isListBan hlist)).1

theorem not_isListBan_of_foreign {b : BanRow} (h : isForeignBan b = true) (l : Nat) :
    isListBan l b = false := by
  by_cases hl : b.originRef = some (.blocklist l)
  · simp only [isForeignBan, hl, bne_iff_ne] at h
    simp [isListBan, h]
  · simp [isListBan, blocklistOriginRef, hl]

theorem enforced_insertForeign {row : BanRow} (h : Enforced env ⟨db, now⟩) :
    Enforced env ⟨{ db with bans := insertForeign db.bans row }, now⟩ := by
  unfold insertForeign
  split
  · rename_i hrow
    rw [Bool.and_eq_true] at hrow
    refine enforced_bans ?_ ?_ h
    · intro b hb _
      exact Table.mem_insert.mpr (Or.inl hb)
    · intro b hb l hlist
      rcases Table.mem_insert.mp hb with hb | rfl
      · exact hb
      · replace hlist : isListBan l row = true := hlist
        rw [not_isListBan_of_foreign hrow.1] at hlist
        contradiction
  · exact h

theorem enforced_delete {l : Blocklist}
    (hok : ∀ e ∈ db.blockedIps.rows, e.blocklistId ≠ l.id → Wanted env db e → Covered db now e →
      ∃ b ∈ db.bans.rows, IsLive now b ∧ isListBan l.id b = false ∧ e.ip.net ≤ b.net)
    (h : Enforced env ⟨db, now⟩) : Enforced env ⟨{ db with
      bans := (deactivateRemoteBans db now (blocklistOriginRef l.id)).bans
      blocklists := db.blocklists.delete fun r => r.id == l.id
      blockedIps := db.blockedIps.delete fun e => e.blocklistId == l.id }, now⟩ := by
  have hflag : ∀ db' : Db, db'.blocklists = db.blocklists.delete (fun r => r.id == l.id) →
      ∀ l', storedEnforce db' l' = true ↔ storedEnforce db l' = true ∧ l' ≠ l.id := by
    intro db' hdb' l'
    rw [storedEnforce_iff, storedEnforce_iff, hdb']
    constructor
    · rintro ⟨r, hr, hid, he⟩
      obtain ⟨hr, hne⟩ := Table.mem_delete.mp hr
      exact ⟨⟨r, hr, hid, he⟩, by rw [← hid]; simpa using hne⟩
    · rintro ⟨⟨r, hr, hid, he⟩, hne⟩
      exact ⟨r, Table.mem_delete.mpr ⟨hr, by rw [hid]; simpa using hne⟩, hid, he⟩
  constructor
  · intro e he hwant
    obtain ⟨he, hne⟩ := Table.mem_delete.mp he
    have hne : e.blocklistId ≠ l.id := by simpa using hne
    have hwant' : Wanted env db e :=
      ⟨((hflag _ rfl _).mp hwant.enforce).1, hwant.banned, hwant.safe, hwant.not_whitelisted⟩
    obtain ⟨b, hb, hlive, hl, hle⟩ := hok e he hne hwant' (h.covered e he hwant')
    refine ⟨b, mem_deactivateBans_of_not_mem hb ?_, hlive, hle⟩
    rw [Table.key_mem_map_filter hb, Bool.not_eq_true]
    exact hl
  · intro b hb l' hlist
    obtain ⟨hb, hid⟩ := active_of_mem_deactivateBans hb (isActive_of_isListBan hlist)
    rw [Table.key_mem_map_filter hb, Bool.not_eq_true] at hid
    have hne : l' ≠ l.id := by
      rintro rfl
      rw [isListBan] at hlist
      rw [hlist] at hid
      contradiction
    obtain ⟨henf, e, he, hban, hip⟩ := h.backed b hb l' hlist
    have hel : e.blocklistId = l' := by
      simp only [isBannedEntry, Bool.and_eq_true, beq_iff_eq] at hban
      exact hban.1.1
    exact ⟨(hflag _ rfl _).mpr ⟨henf, hne⟩, e,
      Table.mem_delete.mpr ⟨he, by rw [hel]; simpa using hne⟩, hban, hip⟩

theorem storedEnforce_of_mem {l : Blocklist} (h : l ∈ db.blocklists.rows) :
    storedEnforce db l.id = l.enforce := by
  rw [storedEnforce, Table.find_eq_some.mpr ⟨h, rfl⟩]
  rfl

theorem storedEnforce_patched {l : Blocklist} {p : ListPatch} (h : l ∈ db.blocklists.rows)
    (hp : (l.patched p).enforce = l.enforce)
    (hdb : db'.blocklists = db.blocklists.update (fun r => r.id == l.id) (Blocklist.patched p)
      (Blocklist.patched_id p)) (k : Nat) : storedEnforce db' k = storedEnforce db k := by
  by_cases hk : k = l.id
  · have hmem : l.patched p ∈ db'.blocklists.rows := by
      rw [hdb, Table.mem_update]
      exact ⟨l, h, if_pos (by simp)⟩
    rw [hk, storedEnforce_of_mem h, ← hp]
    exact storedEnforce_of_mem hmem
  · exact storedEnforce_update hdb hk

theorem storedEnforce_create {name url : String} {sourceType : SourceType} {apiKey : Option String}
    {enforce : Option Bool} {tenantId : Option Nat} {k : Nat} (hk : k ≠ db.blocklists.seq) :
    storedEnforce (createList db name url sourceType apiKey enforce tenantId) k =
      storedEnforce db k := by
  rw [Bool.eq_iff_iff, storedEnforce_iff, storedEnforce_iff, createList]
  constructor
  · rintro ⟨r, hr, hid, he⟩
    rcases Table.mem_insert.mp hr with hr | rfl
    · exact ⟨r, hr, hid, he⟩
    · exact absurd hid.symm hk
  · rintro ⟨r, hr, hid, he⟩
    exact ⟨r, Table.mem_insert.mpr (Or.inl hr), hid, he⟩

theorem enforced_create {name url : String} {sourceType : SourceType} {apiKey : Option String}
    {enforce : Option Bool} {tenantId : Option Nat} (hwf : WellFormed db)
    (h : Enforced env ⟨db, now⟩) :
    Enforced env ⟨createList db name url sourceType apiKey enforce tenantId, now⟩ where
  covered e he hwant := by
    obtain ⟨l, hl, hid⟩ := hwf.owner e he
    have hne : e.blocklistId ≠ db.blocklists.seq := by
      have := (db.blocklists.bounds l hl).2
      omega
    exact h.covered e he (wanted_congr (storedEnforce_create hne) rfl hwant)
  backed b hb k hlist := by
    obtain ⟨henf, hentry⟩ := h.backed b hb k hlist
    obtain ⟨l, hl, hid, -⟩ := storedEnforce_iff.mp henf
    have hne : k ≠ db.blocklists.seq := by
      have := (db.blocklists.bounds l hl).2
      omega
    exact ⟨(storedEnforce_create hne).trans henf, hentry⟩

theorem wellFormed_deactivateBans {ids : List Nat} {reason : LiftReason} (hr : reason ≠ .lift)
    (h : WellFormed db) : WellFormed (deactivateBans db now ids reason).2 := by
  rw [deactivateBans_frame, deactivateBans_blockedIps hr]
  exact ⟨h.canonical, h.owner⟩

theorem wellFormed_step {s s' : ListState} {a : ListAction} (h : WellFormed s.db)
    (hs : listStep env s a = some s') : WellFormed s'.db := by
  cases a with
  | sync id body =>
    rw [← Option.some.inj hs]
    simp only [syncOne]
    split
    · exact h
    · rename_i l hl
      split
      · exact h
      · exact wellFormed_reconcile (wellFormed_sync (Table.find_eq_some.mp hl).1 h)
  | toggle id enabled tenantId =>
    rw [← Option.some.inj hs]
    simp only [toggleIp]
    split
    · exact h
    · split
      · exact wellFormed_reconcile (wellFormed_switch h)
      · exact wellFormed_switch h
  | update id tenantId patch =>
    rw [← Option.some.inj hs]
    simp only [updateList]
    split
    · exact h
    · split
      · exact wellFormed_reconcile (wellFormed_update h)
      · exact wellFormed_update h
  | delete id tenantId =>
    rw [← Option.some.inj hs]
    simp only [deleteList]
    split
    · exact h
    · rename_i l hl
      have hwf : WellFormed (deactivateRemoteBans s.db s.now (blocklistOriginRef l.id)) :=
        wellFormed_deactivateBans (by simp) h
      constructor
      · intro e he
        exact hwf.canonical e (Table.mem_delete.mp he).1
      · intro e he
        obtain ⟨he, hne⟩ := Table.mem_delete.mp he
        obtain ⟨r, hr, hid⟩ := hwf.owner e he
        exact ⟨r, Table.mem_delete.mpr ⟨hr, by rw [hid]; exact hne⟩, hid⟩
  | create name url sourceType apiKey enforce tenantId =>
    rw [← Option.some.inj hs]
    refine ⟨h.canonical, fun e he => ?_⟩
    obtain ⟨r, hr, hid⟩ := h.owner e he
    exact ⟨r, Table.mem_insert.mpr (Or.inl hr), hid⟩
  | expireBans =>
    rw [← Option.some.inj hs]
    exact wellFormed_deactivateBans (by simp) h
  | pass time =>
    simp only [listStep] at hs
    split at hs
    · rw [← Option.some.inj hs]
      exact h
    · contradiction
  | ban row =>
    rw [← Option.some.inj hs]
    exact ⟨h.canonical, h.owner⟩

theorem quiet_enforced {s s' : ListState} {a : ListAction} (hwf : WellFormed s.db)
    (hinv : Enforced env s) (h : reconciled env s a = none) (hok : Undisturbed env s a)
    (hs : listStep env s a = some s') : Enforced env s' := by
  obtain ⟨db, now⟩ := s
  cases a with
  | sync id body =>
    have hsame : syncOne env now id body db = db := by
      unfold syncOne
      split
      · rfl
      · rename_i l hl
        simp only [reconciled, hl, Option.bind_some, Option.map_eq_none_iff] at h
        rw [h]
    rw [← Option.some.inj hs]
    simp only [hsame]
    exact hinv
  | toggle id enabled tenantId =>
    rw [← Option.some.inj hs]
    simp only [toggleIp]
    split
    · exact hinv
    · rename_i l hl
      simp only [reconciled, hl, Option.map_eq_none_iff, Option.filter_eq_none_iff] at h
      have hoff : l.enforce = false := by simpa using h l rfl
      obtain ⟨hmem, f, hf, hid, hfl⟩ := switchableList_eq_some hl
      simp only [hoff, Bool.false_eq_true, if_false]
      have hflag : storedEnforce db l.id = false := (storedEnforce_of_mem hmem).trans hoff
      exact enforced_sameBut (sameBut_switch hf hid hfl) hflag hflag hinv
  | update id tenantId patch =>
    rw [← Option.some.inj hs]
    simp only [updateList]
    split
    · exact hinv
    · rename_i l hl
      simp only [reconciled, hl, Option.map_eq_none_iff, Option.filter_eq_none_iff] at h
      have hp : (l.patched patch).enforce = l.enforce := by simpa using h l rfl
      simp only [hp, bne_self_eq_false, Bool.false_eq_true, if_false]
      refine @enforced_congr env db _ now rfl rfl rfl ?_ hinv
      exact storedEnforce_patched (getRow_eq_some hl).1 hp rfl
  | delete id tenantId =>
    rw [← Option.some.inj hs]
    simp only [deleteList]
    split
    · exact hinv
    · rename_i l hl
      have hframe : (deactivateRemoteBans db now (blocklistOriginRef l.id)).blockedIps =
          db.blockedIps := deactivateBans_blockedIps (by simp)
      rw [hframe]
      exact enforced_delete (hok l hl) hinv
  | create name url sourceType apiKey enforce tenantId =>
    rw [← Option.some.inj hs]
    exact enforced_create hwf hinv
  | expireBans =>
    rw [← Option.some.inj hs]
    exact enforced_expireBans hinv
  | pass time =>
    simp only [listStep] at hs
    split at hs
    · rw [← Option.some.inj hs]
      exact ⟨fun e he hw => hok e he hw (hinv.covered e he hw), hinv.backed⟩
    · contradiction
  | ban row =>
    rw [← Option.some.inj hs]
    exact enforced_insertForeign hinv

end quiet

/-! ## Runs -/

theorem step_enforced {env : SafetyEnv} {s s' : ListState} {a : ListAction} (hwf : WellFormed s.db)
    (hinv : Enforced env s) (hok : Undisturbed env s a) (hs : listStep env s a = some s') :
    Enforced env s' := by
  cases hr : reconciled env s a with
  | none => exact quiet_enforced hwf hinv hr hok hs
  | some r =>
    obtain ⟨list, db⟩ := r
    obtain ⟨hstep, hsame, hwf'⟩ := reconciled_spec hr
    have hq : QuietReconcile env s.now db list.id := by
      cases a with
      | sync | toggle | update => exact hok list db hr
      | delete | create | expireBans | pass | ban => contradiction
    rw [hstep] at hs
    rw [← Option.some.inj hs]
    exact ⟨reconcile_covered hsame hinv.covered (hwf' hwf) hq,
      reconcile_backed hsame hinv.backed (hwf' hwf)⟩

/-- Along every run of undisturbed steps the lists stay enforced. -/
theorem run_enforced (env : SafetyEnv) (s s' : ListState) (as : List ListAction)
    (hwf : WellFormed s.db) (hs : Enforced env s)
    (hok : StepsMeet (listStep env) (Undisturbed env) s as)
    (h : run (listStep env) s as = some s') : Enforced env s' := by
  have hstep : ∀ t a t', (WellFormed t.db ∧ Enforced env t) → Undisturbed env t a →
      listStep env t a = some t' → WellFormed t'.db ∧ Enforced env t' := by
    intro t a t' hinv hquiet ht
    exact ⟨wellFormed_step hinv.1 ht, step_enforced hinv.1 hinv.2 hquiet ht⟩
  exact (run_invariant hstep ⟨hwf, hs⟩ hok h).2

/-! ## Two lists with a common entry -/

/-- A server that protects no address of its own. -/
def plainEnv : SafetyEnv := ⟨none, none, [], [], []⟩

/-- Two enforcing URL lists without entries. -/
def twoListsDb : Db := { Db.empty with
  blocklists := ⟨[⟨1, "A", .url, "https://a.example", none, true, none⟩,
    ⟨2, "B", .url, "https://b.example", none, true, none⟩], 3, by decide, Table.three_pos, by decide⟩ }

/-- Both lists serve the same address. -/
def servedAddress : SyncBody := .url "198.51.100.7"

theorem twoListsDb_wellFormed : WellFormed twoListsDb := ⟨by simp [twoListsDb, Db.empty, Table.empty],
  by simp [twoListsDb, Db.empty, Table.empty]⟩

theorem twoListsDb_enforced : Enforced plainEnv ⟨twoListsDb, 0⟩ :=
  ⟨by simp [twoListsDb, Db.empty, Table.empty], by simp [twoListsDb, Db.empty, Table.empty]⟩

/-- The first sync disturbs nothing. -/
theorem run_enforced_firstSync :
    Enforced plainEnv ⟨syncOne plainEnv 0 1 servedAddress twoListsDb, 0⟩ := by
  refine run_enforced plainEnv ⟨twoListsDb, 0⟩ _ [.sync 1 servedAddress] twoListsDb_wellFormed
    twoListsDb_enforced ⟨?_, fun _ _ => trivial⟩ rfl
  intro list db h
  simp only [reconciled] at h
  obtain ⟨l, hl, h⟩ := Option.bind_eq_some_iff.mp h
  obtain ⟨ws, -, h⟩ := Option.map_eq_some_iff.mp h
  obtain ⟨rfl, rfl⟩ := Prod.mk.inj h
  constructor
  · intro e he hne
    rw [mem_syncEntries_other hne] at he
    simp [twoListsDb, Db.empty, Table.empty] at he
  · intro e _ _ _ b hb
    simp [twoListsDb, Db.empty, Table.empty] at hb

/-- The tables after both lists were synced and the first one stopped enforcing. -/
def firstListOffDb : Db :=
  updateList plainEnv 0 1 (some 1) ⟨none, none, none, some false⟩
    (syncOne plainEnv 0 2 servedAddress (syncOne plainEnv 0 1 servedAddress twoListsDb))

/-- The entry of the second list. -/
def passedOverEntry : BlockedIp :=
  ⟨2, 2, ⟨.v4, 0xc6336407, 32, sampleHost.addr_lt, sampleHost.len_le⟩, some "blocklist", 1, 0, true, .banned⟩

/-- The second list's entry is passed over, and stays without a ban when the first list stops
enforcing. -/
theorem not_enforced_after_off : WellFormed twoListsDb ∧ Enforced plainEnv ⟨twoListsDb, 0⟩ ∧
    ∃ s, run (listStep plainEnv) ⟨twoListsDb, 0⟩ [.sync 1 servedAddress, .sync 2 servedAddress,
      .update 1 (some 1) ⟨none, none, none, some false⟩] = some s ∧ ¬ Enforced plainEnv s := by
  refine ⟨twoListsDb_wellFormed, twoListsDb_enforced, ⟨firstListOffDb, 0⟩, ?_, ?_⟩
  · simp only [run, listStep, Option.bind_some, firstListOffDb]
  intro h
  -- one evaluation of the two syncs
  have hoff : passedOverEntry ∈ firstListOffDb.blockedIps.rows ∧
      (storedEnforce firstListOffDb 2 = true ∧ isBannedEntry 2 passedOverEntry = true ∧
        (entryCheck plainEnv passedOverEntry).toOption.isSome = true ∧
          isWhitelisted firstListOffDb passedOverEntry.ip.net {} = false) ∧
      ∀ b ∈ firstListOffDb.bans.rows, b.isActive = false := by decide +kernel
  obtain ⟨hentry, ⟨henforce, hbanned, hsafe, hwhite⟩, hbans⟩ := hoff
  have hwant : Wanted plainEnv firstListOffDb passedOverEntry :=
    ⟨henforce, hbanned, Checks.exists_ok hsafe, hwhite⟩
  have hcovered := h.covered passedOverEntry
  dsimp only at hcovered
  obtain ⟨b, hb, hlive, -⟩ := hcovered hentry hwant
  exact absurd ((hbans b hb).symm.trans hlive.1) (by simp)

end Obliguard.Server

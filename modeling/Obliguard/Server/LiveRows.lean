import Obliguard.Server.BanWriters

/-!
# One live row for each ban

Rows that the current paths write hold the network address in `ip`, so two of them that share what
they are about have one key (`activeKey_eq`) and the unique index keeps them apart. A row of before
that stores its target in another form has a key of its own, and only the duplicate check of a writer
keeps a new row away from it. No statement makes or prolongs such a row: what a check has seen of
them stays true until the write (`BanCall.Ready.mono`).
-/

namespace Obliguard.Server

open Bans IpValidation ReadCommitted Runs

/-! ## Forms of rows -/

/-- The address of the network is in `ip`, without a mask. -/
def BanRow.plain (b : BanRow) : Bool := b.target.ip == Inet.ofAddr b.net.first

theorem activeKey_eq {b b' : BanRow} (hb : b.plain = true) (hb' : b'.plain = true)
    (h : b.group = b'.group) : activeKey b = activeKey b' := by
  obtain ⟨hnet, hscope, hid, htenant⟩ : b.net = b'.net ∧ b.scope = b'.scope ∧
      b.scopeId = b'.scopeId ∧ b.tenantId = b'.tenantId := by
    simpa only [BanRow.group, Prod.mk.injEq] using h
  have hip : b.target.ip = b'.target.ip := by
    rw [beq_iff_eq.mp hb, beq_iff_eq.mp hb', hnet]
  have hlen : b.target.effectivePrefix = b'.target.effectivePrefix :=
    show b.net.len = b'.net.len by rw [hnet]
  rw [activeKey, activeKey, hip, hlen, hscope, hid, htenant]

theorem net_ofNet {b : BanRow} {n : Net} (h : b.target = Stored.ofNet n) : b.net = n := by
  rw [BanRow.net, h, Stored.networkSql_ofNet, Inet.net_ofNet]

theorem plain_ofNet {b : BanRow} {n : Net} (h : b.target = Stored.ofNet n) : b.plain = true := by
  rw [BanRow.plain, net_ofNet h, h]
  exact beq_self_eq_true _

theorem externalRow_target (args : ExternalPush) {n : Net} (hn : n.IsHost) (id : Nat) :
    (externalRow args n id).target = Stored.ofNet n := by
  rw [externalRow, Stored.ofNet]
  simp only [if_pos hn]

theorem unexpired_mono {b : BanRow} {began now : Int} (hle : began ≤ now)
    (h : b.unexpired now = true) : b.unexpired began = true := by
  rw [BanRow.unexpired, Option.all_eq_true] at h ⊢
  intro e he
  have := h e he
  simp only [gt_iff_lt, decide_eq_true_eq] at this ⊢
  exact lt_of_le_of_lt hle this

theorem live_iff {b : BanRow} {now : Int} :
    b.live now = true ↔ b.isActive = true ∧ b.unexpired now = true := by
  rw [BanRow.live, Bool.and_eq_true]

theorem mem_visibleBans {bans : Store BanRow} {tx : Option Nat} {b : BanRow} :
    b ∈ (visibleBans bans tx).rows ↔
      ∃ i r, (bans.cells i).view tx = some r ∧ b = { r with id := i + 1 } := by
  rw [visibleBans, List.mem_filterMap]
  constructor
  · rintro ⟨i, -, hi⟩
    obtain ⟨r, hr, rfl⟩ := Option.map_eq_some_iff.mp hi
    exact ⟨i, r, hr, rfl⟩
  · rintro ⟨i, r, hr, rfl⟩
    refine ⟨i, ?_, by rw [hr]; rfl⟩
    rw [List.mem_range]
    by_contra hge
    rw [bans.fresh i (Nat.le_of_not_lt hge)] at hr
    unfold Cell.view at hr
    contradiction

/-! ## The invariant of the rows -/

/-- An active row in a form of before. -/
structure Legacy (bans : Store BanRow) (i : Nat) (b : BanRow) : Prop where
  committed : (bans.cells i).committed = some b
  active : b.isActive = true
  odd : b.plain = false

structure RowsInv (bans : Store BanRow) (now : Int) : Prop where
  unique : Unique activeIndex bans
  /-- What a transaction writes is in the current form. -/
  plain : ∀ i t b, (bans.cells i).working = some (t, b) → b.isActive = true → b.plain = true
  /-- A global row stays global, and where it is. -/
  kept : ∀ i t b b', (bans.cells i).working = some (t, b') → (bans.cells i).committed = some b →
    b.scope = .global → b'.scope = .global ∧ b'.target = b.target
  apart : ∀ i j b b', i ≠ j → Legacy bans i b → (bans.cells j).Version b' → b.unexpired now = true →
    b'.live now = true → b.group ≠ b'.group

/-- What a statement leaves of the rows that it finds. -/
structure Ages (before after : Store BanRow) : Prop where
  legacy : ∀ i b, Legacy after i b → Legacy before i b
  global : ∀ i b, (before.cells i).committed = some b → b.scope = .global →
    ∃ b', (after.cells i).committed = some b' ∧ b'.scope = .global ∧ b'.target = b.target

section rows
variable {bans bans' : Store BanRow} {now now' : Int} {c i : Nat} {b : BanRow}

theorem oneLive_of_rowsInv (h : RowsInv bans now) : OneLive bans now := by
  intro i j b b' hb hb' hlive hlive' hgroup
  by_contra hij
  obtain ⟨hactive, hunexpired⟩ := live_iff.mp hlive
  obtain ⟨hactive', hunexpired'⟩ := live_iff.mp hlive'
  by_cases hplain : b.plain = true
  · by_cases hplain' : b'.plain = true
    · have hkey : ∀ r : BanRow, r.isActive = true → activeIndex r = some (activeKey r) :=
        fun r hr => if_pos hr
      refine h.unique.committed i j b b' _ hij hb hb' (hkey b hactive) ?_
      rw [hkey b' hactive', activeKey_eq hplain hplain' hgroup]
    · exact h.apart j i b' b (Ne.symm hij) ⟨hb', hactive', eq_false_of_ne_true hplain'⟩ (.inl hb)
        hunexpired' hlive hgroup.symm
  · exact h.apart i j b b' hij ⟨hb, hactive, eq_false_of_ne_true hplain⟩ (.inl hb') hunexpired
      hlive' hgroup

theorem Ages.refl (bans : Store BanRow) : Ages bans bans :=
  ⟨fun _ _ h => h, fun _ b hb hglobal => ⟨b, hb, hglobal, rfl⟩⟩

theorem RowsInv.later (h : RowsInv bans now) (hle : now ≤ now') : RowsInv bans now' := by
  refine { h with apart := ?_ }
  intro i j b b' hij hb hb' hlive hlive'
  obtain ⟨hactive', hunexpired'⟩ := live_iff.mp hlive'
  exact h.apart i j b b' hij hb hb' (unexpired_mono hle hlive)
    (live_iff.mpr ⟨hactive', unexpired_mono hle hunexpired'⟩)

/-! ### A transaction writes -/

/-- A version that may be written in row `i`. -/
structure MayWrite (bans : Store BanRow) (now : Int) (i : Nat) (b : BanRow) : Prop where
  plain : b.isActive = true → b.plain = true
  kept : ∀ b₀, (bans.cells i).committed = some b₀ → b₀.scope = .global →
    b.scope = .global ∧ b.target = b₀.target
  apart : ∀ k b₀, Legacy bans k b₀ → b₀.unexpired now = true → b.live now = true → b₀.group ≠ b.group

section write
variable {ids : List Nat} (hw : Writes activeIndex bans bans' (some c) ids)
include hw

theorem committed_writes (i : Nat) : (bans'.cells i).committed = (bans.cells i).committed := by
  by_cases hi : i ∈ ids
  · obtain ⟨b, hb⟩ := hw.wrote i hi
    rw [hb]
    rfl
  · rw [hw.same i hi]

theorem ages_writes : Ages bans bans' := by
  refine ⟨?_, ?_⟩
  · intro i b hb
    exact ⟨(committed_writes hw i).symm.trans hb.committed, hb.active, hb.odd⟩
  · intro i b hb hglobal
    exact ⟨b, (committed_writes hw i).trans hb, hglobal, rfl⟩

theorem RowsInv.write (h : RowsInv bans now)
    (hnew : ∀ i ∈ ids, ∀ b, (bans'.cells i).working = some (c, b) → MayWrite bans now i b) :
    RowsInv bans' now := by
  -- a version that is not committed is one of before or one written now
  have hworking : ∀ i t b, (bans'.cells i).working = some (t, b) →
      (bans.cells i).working = some (t, b) ∨ MayWrite bans now i b := by
    intro i t b hb
    by_cases hi : i ∈ ids
    · obtain ⟨b', hb'⟩ := hw.wrote i hi
      have hown : (bans'.cells i).working = some (c, b') := by rw [hb']; rfl
      obtain ⟨rfl, rfl⟩ := Prod.mk.inj (Option.some.inj (hb.symm.trans hown))
      exact .inr (hnew i hi b hb)
    · rw [hw.same i hi] at hb
      exact .inl hb
  have hages := ages_writes hw
  refine ⟨unique_writes h.unique hw, ?_, ?_, ?_⟩
  · intro i t b hb hactive
    rcases hworking i t b hb with hold | hnew
    · exact h.plain i t b hold hactive
    · exact hnew.plain hactive
  · intro i t b b' hb' hb hglobal
    rw [committed_writes hw] at hb
    rcases hworking i t b' hb' with hold | hnew
    · exact h.kept i t b b' hold hb hglobal
    · exact hnew.kept b hb hglobal
  · intro i j b b' hij hb hb' hunexpired hlive
    have hb := hages.legacy i b hb
    rcases hb' with hb' | ⟨t, hb'⟩
    · rw [committed_writes hw] at hb'
      exact h.apart i j b b' hij hb (.inl hb') hunexpired hlive
    · rcases hworking j t b' hb' with hold | hnew
      · exact h.apart i j b b' hij hb (.inr ⟨t, hold⟩) hunexpired hlive
      · exact hnew.apart i b hb hunexpired hlive

end write

/-! ### Rows are deactivated, committed, rolled back -/

section deactivate
variable {p : Nat → BanRow → Bool} {ids : List Nat} {reason : LiftReason}
  (hup : bans.update activeIndex none p (fun _ b => b.deactivated now reason) = .done (ids, bans'))
include hup

theorem committed_deactivated (i : Nat) :
    bans'.cells i = bans.cells i ∧ (∀ b, (bans.cells i).committed = some b → p i b = false) ∨
      (bans.cells i).working = none ∧ ∃ b, (bans.cells i).committed = some b ∧
        bans'.cells i = ⟨some (b.deactivated now reason), none⟩ := by
  by_cases hi : i ∈ ids
  · obtain ⟨b, hb, -⟩ := (mem_update hup).mp hi
    have hfree := (update_writes hup).free i hi
    have hnone : (bans.cells i).working = none := by
      simpa [Cell.lockedByOther] using hfree
    refine .inr ⟨hnone, b, (Cell.view_none _).symm.trans hb, ?_⟩
    rw [cells_update hup hi hb, Cell.write, hnone]
  · refine .inl ⟨(update_writes hup).same i hi, ?_⟩
    intro b hb
    by_contra hp
    exact hi ((mem_update hup).mpr ⟨b, (Cell.view_none _).trans hb, eq_true_of_ne_false hp⟩)

theorem legacy_deactivated (hb : Legacy bans' i b) : Legacy bans i b ∧ p i b = false := by
  rcases committed_deactivated hup i with ⟨hcell, hp⟩ | ⟨-, b', -, hcell⟩
  · have hb' := hb.committed
    rw [hcell] at hb'
    exact ⟨⟨hb', hb.active, hb.odd⟩, hp b hb'⟩
  · have hb' := hb.committed
    rw [hcell] at hb'
    have hactive := hb.active
    rw [← Option.some.inj hb'] at hactive
    contradiction

theorem ages_deactivated : Ages bans bans' := by
  refine ⟨fun i b hb => (legacy_deactivated hup hb).1, ?_⟩
  intro i b hb hglobal
  rcases committed_deactivated hup i with ⟨hcell, -⟩ | ⟨-, b', hb', hcell⟩
  · exact ⟨b, by rw [hcell, hb], hglobal, rfl⟩
  · obtain rfl := Option.some.inj (hb.symm.trans hb')
    exact ⟨b.deactivated now reason, by rw [hcell], hglobal, rfl⟩

theorem RowsInv.deactivate (h : RowsInv bans now) : RowsInv bans' now := by
  have hworking : ∀ i t b, (bans'.cells i).working = some (t, b) → bans'.cells i = bans.cells i := by
    intro i t b hb
    rcases committed_deactivated hup i with ⟨hcell, -⟩ | ⟨-, b', -, hcell⟩
    · exact hcell
    · rw [hcell] at hb
      contradiction
  refine ⟨unique_writes h.unique (update_writes hup), ?_, ?_, ?_⟩
  · intro i t b hb
    rw [hworking i t b hb] at hb
    exact h.plain i t b hb
  · intro i t b b' hb' hb
    rw [hworking i t b' hb'] at hb hb'
    exact h.kept i t b b' hb' hb
  · intro i j b b' hij hb hb' hunexpired hlive
    refine h.apart i j b b' hij (legacy_deactivated hup hb).1 ?_ hunexpired hlive
    rcases committed_deactivated hup j with ⟨hcell, -⟩ | ⟨-, r, -, hcell⟩
    · rw [hcell] at hb'
      exact hb'
    · have hactive' := (live_iff.mp hlive).1
      rw [hcell] at hb'
      rcases hb' with hb' | ⟨t, hb'⟩
      · rw [← Option.some.inj hb'] at hactive'
        contradiction
      · contradiction

end deactivate

/-- A new row. -/
theorem RowsInv.insert {r : BanRow} (h : RowsInv bans now)
    (hins : bans.insert activeIndex (some c) r = .done bans') (hplain : r.plain = true)
    (happart : ∀ k b₀, Legacy bans k b₀ → b₀.unexpired now = true → b₀.group ≠ r.group) :
    RowsInv bans' now ∧ Ages bans bans' := by
  have hw := insert_writes hins
  refine ⟨h.write hw ?_, ages_writes hw⟩
  intro i hi b hb
  obtain rfl := List.mem_singleton.mp hi
  rw [insert_eq hins] at hb
  have hcell : (bans.append (some c) r).cells bans.seq = Cell.empty.write (some c) r := if_pos rfl
  rw [hcell] at hb
  obtain rfl := (Prod.mk.inj (Option.some.inj hb)).2
  refine ⟨fun _ => hplain, ?_, fun k b₀ hb₀ hunexpired _ => happart k b₀ hb₀ hunexpired⟩
  intro b₀ hb₀
  rw [bans.fresh _ le_rfl] at hb₀
  contradiction

theorem view_global {b₀ : BanRow} (h : RowsInv bans now) (hview : (bans.cells i).view (some c) = some b)
    (hb₀ : (bans.cells i).committed = some b₀) (hglobal : b₀.scope = .global) :
    b.scope = .global ∧ b.target = b₀.target := by
  by_cases howned : (bans.cells i).owned (some c) = true
  · obtain ⟨w, hw⟩ := Cell.owned_iff.mp howned
    rw [Cell.view_of_working hw] at hview
    obtain rfl := Option.some.inj hview
    exact h.kept i c b₀ w hw hb₀ hglobal
  · rw [Cell.view_of_not_owned (eq_false_of_ne_true howned), hb₀] at hview
    obtain rfl := Option.some.inj hview
    exact ⟨hglobal, rfl⟩

theorem legacy_commit (h : RowsInv bans now) (hb : Legacy (bans.commit c) i b) : Legacy bans i b := by
  rcases Cell.committed_commit_eq_some hb.committed with hw | ⟨-, hcommitted⟩
  · have := hb.odd
    rw [h.plain i c b hw hb.active] at this
    contradiction
  · exact ⟨hcommitted, hb.active, hb.odd⟩

theorem ages_commit (h : RowsInv bans now) : Ages bans (bans.commit c) := by
  refine ⟨fun i b hb => legacy_commit h hb, ?_⟩
  intro i b hb hglobal
  show ∃ b', ((bans.cells i).commit c).committed = some b' ∧ _
  rw [Cell.committed_commit]
  split
  · rename_i howned
    obtain ⟨w, hw⟩ := Cell.owned_iff.mp howned
    exact ⟨w, Cell.view_of_working hw, h.kept i c b w hw hb hglobal⟩
  · exact ⟨b, hb, hglobal, rfl⟩

theorem RowsInv.commit (h : RowsInv bans now) (c : Nat) : RowsInv (bans.commit c) now := by
  refine ⟨unique_commit h.unique c, ?_, ?_, ?_⟩
  · intro i t b hb
    exact h.plain i t b (Cell.working_commit_eq_some hb).2
  · intro i t b b' hb' hb
    obtain ⟨howned, hb'⟩ := Cell.working_commit_eq_some hb'
    rcases Cell.committed_commit_eq_some hb with hw | ⟨-, hb⟩
    · rw [Cell.owned_iff.mpr ⟨b, hw⟩] at howned
      contradiction
    · exact h.kept i t b b' hb' hb
  · intro i j b b' hij hb hb'
    exact h.apart i j b b' hij (legacy_commit h hb) hb'.of_commit

theorem ages_rollback : Ages bans (bans.rollback c) := by
  have hcommitted : ∀ i, ((bans.rollback c).cells i).committed = (bans.cells i).committed :=
    fun i => Cell.committed_rollback _ _
  refine ⟨fun i b hb => ⟨(hcommitted i).symm.trans hb.committed, hb.active, hb.odd⟩, ?_⟩
  intro i b hb hglobal
  exact ⟨b, (hcommitted i).trans hb, hglobal, rfl⟩

theorem RowsInv.rollback (h : RowsInv bans now) (c : Nat) : RowsInv (bans.rollback c) now := by
  refine ⟨unique_rollback h.unique c, ?_, ?_, ?_⟩
  · intro i t b hb
    exact h.plain i t b (Cell.working_rollback_eq_some hb).2
  · intro i t b b' hb' hb
    exact h.kept i t b b' (Cell.working_rollback_eq_some hb').2
      ((Cell.committed_rollback _ _).symm.trans hb)
  · intro i j b b' hij hb hb'
    exact h.apart i j b b' hij (ages_rollback.legacy i b hb) hb'.of_rollback

end rows

/-! ## What calls rely on -/

/-- No row of before that still counted when the transaction began is in the way of the write. -/
def Quiet (bans : Store BanRow) (began : Int) (w : BanWrite) : Prop :=
  ∀ i b, Legacy bans i b → b.unexpired began = true → w.rival b = false

/-- No row of before is a global ban of the network. -/
def Clear (bans : Store BanRow) (n : Net) : Prop :=
  ∀ i b, Legacy bans i b → b.scope = .global → b.net ≠ n

/-- An external ban is one of a single address. -/
def BanWrite.Sound : BanWrite → Prop
  | .external _ t => t.net.IsHost
  | _ => True

/-- What a call relies on where it stands. -/
def BanCall.Ready (bans : Store BanRow) (now : Int) : BanCall → Prop
  | .staleReading w | .deactivating _ _ (.write w) | .beginning w => w.Sound
  | .locking w began | .screening w began | .checking w began => w.Sound ∧ began ≤ now
  | .writing w began => w.Sound ∧ began ≤ now ∧ Quiet bans began w
  | .extending args t began current => began ≤ now ∧ Quiet bans began (.external args t) ∧
      ∃ i b, current.id = i + 1 ∧ (bans.cells i).committed = some b ∧ b.scope = .global ∧
        b.plain = true ∧ b.net = t.net
  | .remoteInserting _ targets _ => ∀ t ∈ targets, Clear bans t.target.net
  | .deactivating _ chunks (.insertAutos _ free) => ∀ p ∈ free, ∀ i b, Legacy bans i b →
      b.scope = .global → b.net = p.2.net → i + 1 ∈ chunks.flatten
  | .autoChoosing _ free => ∀ p ∈ free, Clear bans p.2.net
  | .autoInserting chunks => ∀ chunk ∈ chunks, ∀ p ∈ chunk, Clear bans p.2.1.net
  | _ => True

structure BanInv (s : BanState) : Prop where
  rows : RowsInv s.bans s.now
  calls : ∀ c call, s.calls.get c = some call → call.Ready s.bans s.now

section calls
variable {bans bans' : Store BanRow} {now now' began : Int} {w : BanWrite} {n : Net}

theorem Quiet.mono (hages : Ages bans bans') (h : Quiet bans began w) : Quiet bans' began w :=
  fun i b hb => h i b (hages.legacy i b hb)

theorem Clear.mono (hages : Ages bans bans') (h : Clear bans n) : Clear bans' n :=
  fun i b hb => h i b (hages.legacy i b hb)

/-- What a call relies on stays true whatever the others do. -/
theorem BanCall.Ready.mono {call : BanCall} (h : call.Ready bans now) (hages : Ages bans bans')
    (hle : now ≤ now') : call.Ready bans' now' := by
  cases call with
  | locking w began => exact ⟨h.1, le_trans h.2 hle⟩
  | screening w began => exact ⟨h.1, le_trans h.2 hle⟩
  | checking w began => exact ⟨h.1, le_trans h.2 hle⟩
  | writing w began => exact ⟨h.1, le_trans h.2.1 hle, h.2.2.mono hages⟩
  | extending args t began current =>
    obtain ⟨hbegan, hquiet, i, b, hid, hb, hglobal, hplain, hnet⟩ := h
    obtain ⟨b', hb', hglobal', htarget⟩ := hages.global i b hb hglobal
    have hnet' : b'.net = b.net := by rw [BanRow.net, BanRow.net, htarget]
    refine ⟨le_trans hbegan hle, hquiet.mono hages, i, b', hid, hb', hglobal', ?_, hnet'.trans hnet⟩
    rw [BanRow.plain, htarget, hnet']
    exact hplain
  | remoteInserting o targets chunks => exact fun t ht => (h t ht).mono hages
  | autoChoosing policy free => exact fun p hp => (h p hp).mono hages
  | autoInserting chunks => exact fun chunk hchunk p hp => (h chunk hchunk p hp).mono hages
  | deactivating reason chunks next =>
    cases next with
    | insertAutos policy free => exact fun p hp i b hb => h p hp i b (hages.legacy i b hb)
    | write w => exact h
    | finish => exact h
  | staleReading w => exact h
  | beginning w => exact h
  | _ => trivial

theorem rival_of_group {b b' : BanRow} (h : b.group = b'.group) : w.rival b = w.rival b' := by
  obtain ⟨hnet, hscope, -, -⟩ : b.net = b'.net ∧ b.scope = b'.scope ∧ b.scopeId = b'.scopeId ∧
      b.tenantId = b'.tenantId := by
    simpa only [BanRow.group, Prod.mk.injEq] using h
  cases w with
  | create c nb => rw [BanWrite.rival, BanWrite.rival, h]
  | promote banId t => rw [BanWrite.rival, BanWrite.rival, h]
  | external args t => rw [BanWrite.rival, BanWrite.rival, hnet, hscope]

/-- A row of the group that the write makes is kept away by the rows of before. -/
theorem Quiet.apart {b : BanRow} (h : Quiet bans began w) (hle : began ≤ now)
    (hb : w.rival b = true) (k : Nat) (b₀ : BanRow) (hb₀ : Legacy bans k b₀)
    (hunexpired : b₀.unexpired now = true) : b₀.group ≠ b.group := by
  intro hgroup
  have := h k b₀ hb₀ (unexpired_mono hle hunexpired)
  rw [rival_of_group hgroup, hb] at this
  contradiction

theorem Clear.apart {b : BanRow} (h : Clear bans n) (hnet : b.net = n) (hglobal : b.scope = .global)
    (k : Nat) (b₀ : BanRow) (hb₀ : Legacy bans k b₀) : b₀.group ≠ b.group := by
  intro hgroup
  obtain ⟨hnet₀, hscope₀, -⟩ : b₀.net = b.net ∧ b₀.scope = b.scope ∧ _ := by
    simpa only [BanRow.group, Prod.mk.injEq] using hgroup
  exact h k b₀ hb₀ (hscope₀.trans hglobal) (hnet₀.trans hnet)

end calls

/-! ## One statement -/

section step
variable {hashtext : String → Int} {s s' : BanState} {c : Nat} {began : Int} {w : BanWrite}
  {bans : Store BanRow} {call : BanCall}

theorem banInv_of (h : BanInv s) (hrows : RowsInv s'.bans s'.now) (hages : Ages s.bans s'.bans)
    (hle : s.now ≤ s'.now) (hcalls : ∀ d call, s'.calls.get d = some call →
      s.calls.get d = some call ∨ call.Ready s'.bans s'.now) : BanInv s' := by
  refine ⟨hrows, ?_⟩
  intro d call hd
  rcases hcalls d call hd with hold | hready
  · exact (h.calls d call hold).mono hages hle
  · exact hready

theorem banInv_write (h : BanInv s) (hrows : RowsInv bans s.now) (hages : Ages s.bans bans)
    (hready : call.Ready bans s.now) : BanInv ({ s with bans := bans }.setCall c call) := by
  refine banInv_of h hrows hages le_rfl ?_
  intro d call' hd
  rcases Registry.get_put_eq_some hd with ⟨-, rfl⟩ | ⟨-, hd⟩
  · exact .inr hready
  · exact .inl hd

theorem banInv_setCall (h : BanInv s) (hready : call.Ready s.bans s.now) :
    BanInv (s.setCall c call) :=
  banInv_write h h.rows (Ages.refl _) hready

theorem banInv_start (h : BanInv s) (hready : call.Ready s.bans s.now) : BanInv (s.start call) := by
  refine banInv_of h h.rows (Ages.refl _) le_rfl ?_
  intro d call' hd
  rcases Registry.get_put_eq_some hd with ⟨-, rfl⟩ | ⟨-, hd⟩
  · exact .inr hready
  · exact .inl hd

theorem banInv_endCall (h : BanInv s) : BanInv (s.endCall c) := by
  refine banInv_of h h.rows (Ages.refl _) le_rfl ?_
  intro d call hd
  exact .inl (Registry.get_erase_eq_some hd).2

theorem banInv_commit (h : BanInv s) : BanInv (s.commit c) :=
  banInv_of h (h.rows.commit c) (ages_commit h.rows) le_rfl fun _ _ hd => .inl hd

theorem banInv_fail (h : BanInv s) : BanInv (s.fail c) := by
  refine banInv_of h (h.rows.rollback c) ages_rollback le_rfl ?_
  intro d call hd
  exact .inl (Registry.get_erase_eq_some hd).2

theorem banInv_lock {l : Int} (h : BanInv s) (hs : s.lock c l = some s') : BanInv s' ∧
    s'.bans = s.bans ∧ s'.now = s.now := by
  unfold BanState.lock at hs
  split at hs
  · obtain rfl := Option.some.inj hs
    exact ⟨⟨h.rows, h.calls⟩, rfl, rfl⟩
  · contradiction

/-! ### Duplicate checks -/

/-- The duplicate check recognises the live rows that the write must not join. -/
def Finds (s : BanState) (began : Int) (w : BanWrite) : Prop :=
  ∀ i b, (s.bans.cells i).committed = some b → b.live began = true → w.rival b = true →
    sameTarget w.target.net b = true

theorem mem_db {i : Nat} {b : BanRow} (hb : (s.bans.cells i).committed = some b) :
    { b with id := i + 1 } ∈ (s.db none).bans.rows :=
  mem_visibleBans.mpr ⟨i, b, (Cell.view_none _).trans hb, rfl⟩

theorem finds_of_findsRivals {at' : Int} (h : FindsRivals s (.next c at'))
    (hc : s.calls.get c = some (.checking w began)) : Finds s began w := by
  intro i b hb hlive hrival
  dsimp only [FindsRivals] at h
  rw [hc] at h
  have hrow := List.all_eq_true.mp h _ (mem_db hb)
  rw [Bool.or_eq_true] at hrow
  rcases hrow with hno | hsame
  · have hyes : (BanRow.live began { b with id := i + 1 } &&
        w.rival { b with id := i + 1 }) = true := by
      rw [Bool.and_eq_true]
      refine ⟨hlive, ?_⟩
      rw [← hrival]
      exact rival_of_group rfl
    rw [hyes] at hno
    contradiction
  · exact hsame

theorem quiet_create {caller : Caller} {nb : NewBan} (hfinds : Finds s began (.create caller nb))
    (hnone : findDuplicate (s.db none) began nb = none) :
    Quiet s.bans began (.create caller nb) := by
  intro i b hb hunexpired
  by_contra hrival
  have hrival := eq_true_of_ne_false hrival
  have hsame := hfinds i b hb.committed (live_iff.mpr ⟨hb.active, hunexpired⟩) hrival
  have hgroup : b.net = nb.target.net ∧ b.scope = nb.scope ∧ b.scopeId = nb.scopeId ∧
      b.tenantId = nb.tenantId := by
    simpa only [BanWrite.rival, BanRow.group, beq_iff_eq, Prod.mk.injEq] using hrival
  have hmem : { b with id := i + 1 } ∈ (s.db none).bans.rows.filter fun b =>
      sameTarget nb.target.net b && b.isActive && b.unexpired began := by
    rw [List.mem_filter]
    refine ⟨mem_db hb.committed, ?_⟩
    simp only [Bool.and_eq_true]
    exact ⟨⟨hsame, hb.active⟩, hunexpired⟩
  obtain ⟨hglobal, hown⟩ := Option.or_eq_none_iff.mp hnone
  by_cases hscope : nb.scope = .global
  · refine List.find?_eq_none.mp hglobal _ hmem ?_
    rw [beq_iff_eq]
    exact hgroup.2.1.trans hscope
  · rw [List.head?_eq_none_iff, List.filter_eq_nil_iff] at hown
    refine hown _ hmem ?_
    simp only [Bool.and_eq_true, bne_iff_ne, beq_iff_eq]
    exact ⟨⟨⟨hscope, hgroup.2.1⟩, by rw [hgroup.2.2.1]⟩, hgroup.2.2.2⟩

theorem quiet_promote {banId : Nat} {t : BanTarget} (hfinds : Finds s began (.promote banId t))
    (hnone : ((s.db none).bans.rows.any fun b => sameTarget t.net b && b.isActive &&
      b.unexpired began && b.scope == .global) = false) : Quiet s.bans began (.promote banId t) := by
  intro i b hb hunexpired
  by_contra hrival
  have hrival := eq_true_of_ne_false hrival
  have hsame := hfinds i b hb.committed (live_iff.mpr ⟨hb.active, hunexpired⟩) hrival
  have hgroup : b.net = t.net ∧ b.scope = .global ∧ b.scopeId = none ∧ b.tenantId = none := by
    simpa only [BanWrite.rival, BanRow.group, beq_iff_eq, Prod.mk.injEq] using hrival
  have hrow := List.any_eq_false.mp hnone _ (mem_db hb.committed)
  refine hrow ?_
  simp only [Bool.and_eq_true, beq_iff_eq]
  exact ⟨⟨⟨hsame, hb.active⟩, hunexpired⟩, hgroup.2.1⟩

theorem quiet_external {args : ExternalPush} {t : BanTarget} (hhost : t.net.IsHost)
    (hfinds : Finds s began (.external args t)) : Quiet s.bans began (.external args t) := by
  intro i b hb hunexpired
  by_contra hrival
  have hsame := hfinds i b hb.committed (live_iff.mpr ⟨hb.active, hunexpired⟩)
    (eq_true_of_ne_false hrival)
  have hnet := net_of_sameTarget hsame
  have hform : Inet.ofNet t.net = Inet.ofAddr t.net.first := Inet.ext rfl rfl hhost
  have hplain : b.plain = true := by
    rw [BanRow.plain, hnet, beq_iff_eq]
    simp only [sameTarget, Bool.and_eq_true, Bool.or_eq_true, beq_iff_eq] at hsame
    rcases hsame.1 with hip | hip
    · exact hip
    · exact hip.trans hform
  rw [hb.odd] at hplain
  contradiction

theorem banInv_check (h : BanInv s) (hsound : w.Sound) (hle : began ≤ s.now)
    (hfinds : Finds s began w) : BanInv (s.check c began w) := by
  cases w with
  | create caller nb =>
    rw [BanState.check]
    split
    · exact banInv_fail h
    · rename_i hnone
      exact banInv_setCall h ⟨trivial, hle, quiet_create hfinds hnone⟩
  | promote banId t =>
    rw [BanState.check]
    split
    · exact banInv_fail h
    · rename_i hnone
      exact banInv_setCall h ⟨trivial, hle, quiet_promote hfinds (eq_false_of_ne_true hnone)⟩
  | external args t =>
    have hquiet := quiet_external hsound hfinds
    rw [BanState.check]
    split
    · rename_i b hcurrent
      obtain ⟨hmem, hactive⟩ := mem_currentGlobal hcurrent
      obtain ⟨i, r, hr, rfl⟩ := mem_visibleBans.mp hmem
      obtain ⟨hglobal, -, hip, hlen⟩ := activeGlobal_iff.mp hactive
      have hnet : r.net = t.net := by
        refine net_of_sameTarget (b := r) ?_
        simp only [sameTarget, Bool.and_eq_true, Bool.or_eq_true, beq_iff_eq]
        exact ⟨.inl hip, hlen.trans hsound.symm⟩
      have hplain : r.plain = true := by
        rw [BanRow.plain, hnet, beq_iff_eq]
        exact hip
      split
      · exact banInv_setCall h ⟨hle, hquiet, i, r, rfl, (Cell.view_none _).symm.trans hr, hglobal,
          hplain, hnet⟩
      · exact banInv_setCall h trivial
    · exact banInv_setCall h ⟨hsound, hle, hquiet⟩

/-! ### Writes -/

theorem rowsInv_write (h : BanInv s) (hready : (BanCall.writing w began).Ready s.bans s.now)
    (hdone : s.write c w = .done bans) : RowsInv bans s.now ∧ Ages s.bans bans := by
  obtain ⟨hsound, hle, hquiet⟩ := hready
  cases w with
  | create caller nb =>
    rw [BanState.write] at hdone
    refine h.rows.insert hdone (plain_ofNet rfl) (hquiet.apart hle ?_)
    rw [BanWrite.rival, BanRow.group, net_ofNet rfl]
    exact beq_self_eq_true _
  | external args t =>
    rw [BanState.write] at hdone
    have htarget := externalRow_target args hsound (s.bans.seq + 1)
    refine h.rows.insert hdone (plain_ofNet htarget) (hquiet.apart hle ?_)
    rw [BanWrite.rival, net_ofNet htarget, Bool.and_eq_true]
    exact ⟨beq_self_eq_true _, beq_self_eq_true _⟩
  | promote banId t =>
    rw [BanState.write] at hdone
    split at hdone
    · contradiction
    · rename_i ids bans' hne hup
      obtain rfl := Outcome.done.inj hdone
      have hw := update_writes hup
      refine ⟨h.rows.write hw ?_, ages_writes hw⟩
      intro i hi b hb
      obtain ⟨v, hv, hp⟩ := (mem_update hup).mp hi
      rw [cells_update hup hi hv] at hb
      obtain rfl := (Prod.mk.inj (Option.some.inj hb)).2
      refine ⟨fun _ => plain_ofNet rfl, ?_, ?_⟩
      · -- the row is not a global one
        intro b₀ hb₀ hglobal
        have hscope := (view_global h.rows hv hb₀ hglobal).1
        simp [hscope] at hp
      · intro k b₀ hb₀ hunexpired _
        refine hquiet.apart hle ?_ k b₀ hb₀ hunexpired
        rw [BanWrite.rival, BanRow.group, net_ofNet rfl]
        exact beq_self_eq_true _
    · contradiction
    · contradiction

theorem rowsInv_extend {args : ExternalPush} {t : BanTarget} {current : BanRow} {ids : List Nat}
    (h : BanInv s) (hready : (BanCall.extending args t began current).Ready s.bans s.now)
    (hdone : s.extend c args current = .done (ids, bans)) :
    RowsInv bans s.now ∧ Ages s.bans bans := by
  obtain ⟨hle, hquiet, j, r, hid, hr, hglobal, hplain, hnet⟩ := hready
  have hup : s.bans.update activeIndex (some c) _ _ = .done (ids, bans) := hdone
  have hw := update_writes hup
  refine ⟨h.rows.write hw ?_, ages_writes hw⟩
  intro i hi b hb
  obtain ⟨v, hv, hp⟩ := (mem_update hup).mp hi
  have hij : i = j := by
    have hi : i + 1 = current.id := beq_iff_eq.mp hp
    exact Nat.succ.inj (hi.trans hid)
  subst hij
  obtain ⟨hscope, htarget⟩ := view_global h.rows hv hr hglobal
  rw [cells_update hup hi hv] at hb
  obtain rfl := (Prod.mk.inj (Option.some.inj hb)).2
  have hnet' : v.net = r.net := by rw [BanRow.net, BanRow.net, htarget]
  have hplain' : v.plain = true := by
    rw [BanRow.plain, htarget, hnet']
    exact hplain
  refine ⟨fun _ => hplain', ?_, ?_⟩
  · intro b₀ hb₀ _
    obtain rfl := Option.some.inj (hr.symm.trans hb₀)
    exact ⟨hscope, htarget⟩
  · intro k b₀ hb₀ hunexpired _
    refine hquiet.apart hle ?_ k b₀ hb₀ hunexpired
    rw [BanWrite.rival, Bool.and_eq_true, beq_iff_eq, beq_iff_eq]
    exact ⟨hnet'.trans hnet, hscope⟩

theorem banInv_insertIgnore {mk : Nat → BanRow} {n : Net} (h : BanInv s)
    (hs : s.insertIgnore c mk = some s') (htarget : ∀ id, (mk id).target = Stored.ofNet n)
    (hglobal : ∀ id, (mk id).scope = .global) (hclear : Clear s.bans n) :
    BanInv s' ∧ Ages s.bans s'.bans ∧ s'.now = s.now := by
  unfold BanState.insertIgnore at hs
  split at hs
  · rename_i bans hins
    obtain rfl := Option.some.inj hs
    obtain ⟨hrows, hages⟩ := h.rows.insert hins (plain_ofNet (htarget _)) fun k b₀ hb₀ _ =>
      hclear.apart (net_ofNet (htarget _)) (hglobal _) k b₀ hb₀
    exact ⟨banInv_of h hrows hages le_rfl fun _ _ hd => .inl hd, hages, rfl⟩
  · obtain rfl := Option.some.inj hs
    exact ⟨h, Ages.refl _, rfl⟩
  · contradiction

theorem clear_of_not_covered {n : Net} (h : globallyCovered (s.db none).bans n = false) :
    Clear s.bans n := by
  intro i b hb hglobal hnet
  have hcovered : globallyCovered (s.db none).bans n = true :=
    globallyCovered_iff.mpr ⟨_, mem_db hb.committed, hb.active, hglobal, hnet.ge⟩
  rw [h] at hcovered
  contradiction

theorem mem_liftChunks {ids : List Nat} {i : Nat} (h : i + 1 ∈ ids) :
    i + 1 ∈ (liftChunks ids).flatten := by
  rw [List.mem_flatten]
  refine (mem_slices (by decide)).mpr ?_
  rw [List.mem_filter, mem_distinct]
  exact ⟨h, decide_eq_true (Nat.succ_pos i)⟩

theorem banInv_afterLift {next : AfterLift} {reason : LiftReason} (h : BanInv s)
    (hready : (BanCall.deactivating reason [] next).Ready s.bans s.now) :
    BanInv (s.afterLift c next) := by
  cases next with
  | finish => exact banInv_endCall h
  | write w => exact banInv_setCall h hready
  | insertAutos policy free =>
    refine banInv_setCall h ?_
    intro p hp i b hb hglobal hnet
    have := hready p hp i b hb hglobal hnet
    contradiction

theorem banInv_deactivate {reason : LiftReason} {chunk : List Nat} {chunks : List (List Nat)}
    {next : AfterLift} {ids : List Nat} (h : BanInv s)
    (hready : (BanCall.deactivating reason (chunk :: chunks) next).Ready s.bans s.now)
    (hup : s.bans.update activeIndex none (fun i b => chunk.contains (i + 1) && b.isActive)
      (fun _ b => b.deactivated s.now reason) = .done (ids, bans)) :
    BanInv ({ s with bans := bans }.setCall c (.deactivating reason chunks next)) := by
  refine banInv_write h (h.rows.deactivate hup) (ages_deactivated hup) ?_
  cases next with
  | finish => trivial
  | write w => exact hready
  | insertAutos policy free =>
    intro p hp i b hb hglobal hnet
    obtain ⟨hold, hkept⟩ := legacy_deactivated hup hb
    have hid := hready p hp i b hold hglobal hnet
    rw [List.flatten_cons, List.mem_append] at hid
    rcases hid with hid | hid
    · simp [hid, hold.active] at hkept
    · exact hid

theorem banInv_deactivating {at' : Int} {reason : LiftReason} {chunks : List (List Nat)}
    {next : AfterLift} (h : BanInv s)
    (hready : (BanCall.deactivating reason chunks next).Ready s.bans s.now)
    (hs : banNext hashtext s c at' (.deactivating reason chunks next) = some s') : BanInv s' := by
  cases chunks with
  | nil =>
    obtain rfl := Option.some.inj hs
    exact banInv_afterLift h hready
  | cons chunk chunks =>
    unfold banNext at hs
    dsimp only at hs
    split at hs
    · rename_i ids bans hup
      obtain rfl := Option.some.inj hs
      exact banInv_deactivate h hready hup
    · contradiction

theorem banInv_locking {at' : Int} (h : BanInv s)
    (hready : (BanCall.locking w began).Ready s.bans s.now)
    (hs : banNext hashtext s c at' (.locking w began) = some s') : BanInv s' := by
  obtain ⟨t, ht, rfl⟩ := Option.map_eq_some_iff.mp hs
  obtain ⟨hinv, -, hnow⟩ := banInv_lock h ht
  exact banInv_setCall hinv ⟨hready.1, hnow ▸ hready.2⟩

theorem banInv_screening {at' : Int} (h : BanInv s)
    (hready : (BanCall.screening w began).Ready s.bans s.now)
    (hs : banNext hashtext s c at' (.screening w began) = some s') : BanInv s' := by
  unfold banNext at hs
  dsimp only at hs
  split at hs
  · obtain rfl := Option.some.inj hs
    exact banInv_fail h
  · obtain rfl := Option.some.inj hs
    exact banInv_setCall h hready

theorem banInv_writing {at' : Int} (h : BanInv s)
    (hready : (BanCall.writing w began).Ready s.bans s.now)
    (hs : banNext hashtext s c at' (.writing w began) = some s') : BanInv s' := by
  unfold banNext at hs
  dsimp only at hs
  split at hs
  · rename_i bans hdone
    obtain rfl := Option.some.inj hs
    obtain ⟨hrows, hages⟩ := rowsInv_write h hready hdone
    exact banInv_write h hrows hages trivial
  · obtain rfl := Option.some.inj hs
    exact banInv_fail h
  · contradiction

theorem banInv_extending {at' : Int} {args : ExternalPush} {t : BanTarget} {current : BanRow} (h : BanInv s)
    (hready : (BanCall.extending args t began current).Ready s.bans s.now)
    (hs : banNext hashtext s c at' (.extending args t began current) = some s') : BanInv s' := by
  unfold banNext at hs
  dsimp only at hs
  split at hs
  · rename_i ids bans hdone
    obtain rfl := Option.some.inj hs
    obtain ⟨hrows, hages⟩ := rowsInv_extend h hready hdone
    exact banInv_write h hrows hages trivial
  · obtain rfl := Option.some.inj hs
    exact banInv_fail h
  · contradiction

theorem banInv_remoteSelecting {at' : Int} {o : RemoteOptions} {chunks : List (List RemoteTarget)} (h : BanInv s)
    (hready : (BanCall.remoteSelecting o chunks).Ready s.bans s.now)
    (hs : banNext hashtext s c at' (.remoteSelecting o chunks) = some s') : BanInv s' := by
  cases chunks with
  | nil =>
    obtain rfl := Option.some.inj hs
    exact banInv_endCall h
  | cons chunk chunks =>
    obtain rfl := Option.some.inj hs
    refine banInv_setCall h ?_
    intro t ht
    have himportable := (List.mem_filter.mp ht).2
    rw [importable, Bool.and_eq_true, Bool.and_eq_true, Bool.not_eq_true'] at himportable
    exact clear_of_not_covered himportable.1.1

theorem banInv_remoteInserting {at' : Int} {o : RemoteOptions} {targets : List RemoteTarget}
    {chunks : List (List RemoteTarget)} (h : BanInv s)
    (hready : (BanCall.remoteInserting o targets chunks).Ready s.bans s.now)
    (hs : banNext hashtext s c at' (.remoteInserting o targets chunks) = some s') : BanInv s' := by
  cases targets with
  | nil =>
    obtain rfl := Option.some.inj hs
    exact banInv_setCall (banInv_commit h) trivial
  | cons t targets =>
    obtain ⟨s₁, hs₁, rfl⟩ := Option.map_eq_some_iff.mp hs
    obtain ⟨hinv, hages, -⟩ := banInv_insertIgnore h hs₁ (fun _ => rfl) (fun _ => rfl)
      (hready t List.mem_cons_self)
    refine banInv_setCall hinv ?_
    intro t' ht'
    exact (hready t' (List.mem_cons_of_mem t ht')).mono hages

theorem banInv_autoReading {at' : Int} {env : SafetyEnv} {policy : BanPolicy}
    {candidates : List AutoBanCandidate} (h : BanInv s)
    (hs : banNext hashtext s c at' (.autoReading env policy candidates) = some s') : BanInv s' := by
  obtain rfl := Option.some.inj hs
  refine banInv_setCall h ?_
  -- a row of before that covers the address is among the ids to deactivate
  intro p hp i b hb hglobal hnet
  refine mem_liftChunks (List.mem_flatMap.mpr ⟨p, hp, ?_⟩)
  refine List.mem_map.mpr ⟨{ b with id := i + 1 }, ?_, rfl⟩
  rw [covering, List.mem_filter]
  refine ⟨mem_db hb.committed, ?_⟩
  simp only [Bool.and_eq_true, beq_iff_eq, Inet.contains_iff, Inet.net_ofNet]
  exact ⟨⟨hglobal, hb.active⟩, hnet.ge⟩

theorem banInv_autoChoosing {at' : Int} {policy : BanPolicy} {free : List (AutoBanCandidate × BanTarget)} (h : BanInv s)
    (hready : (BanCall.autoChoosing policy free).Ready s.bans s.now)
    (hs : banNext hashtext s c at' (.autoChoosing policy free) = some s') : BanInv s' := by
  obtain rfl := Option.some.inj hs
  refine banInv_setCall h ?_
  intro chunk hchunk p hp
  have hmem := (mem_slices (by decide)).mp ⟨chunk, hchunk, hp⟩
  obtain ⟨q, hq, rfl⟩ := List.mem_map.mp hmem
  exact hready q (List.mem_of_mem_filter hq)

theorem banInv_autoInserting {at' : Int} {chunks : List (List NewAutoBan)} (h : BanInv s)
    (hready : (BanCall.autoInserting chunks).Ready s.bans s.now)
    (hs : banNext hashtext s c at' (.autoInserting chunks) = some s') : BanInv s' := by
  match chunks with
  | [] =>
    obtain rfl := Option.some.inj hs
    exact banInv_endCall h
  | [] :: chunks =>
    obtain rfl := Option.some.inj hs
    refine banInv_setCall (banInv_commit h) ?_
    intro chunk hchunk p hp
    exact (hready chunk (List.mem_cons_of_mem _ hchunk) p hp).mono (ages_commit h.rows)
  | (p :: rows) :: chunks =>
    obtain ⟨s₁, hs₁, rfl⟩ := Option.map_eq_some_iff.mp hs
    obtain ⟨hinv, hages, -⟩ := banInv_insertIgnore h hs₁ (fun _ => rfl) (fun _ => rfl)
      (hready _ List.mem_cons_self p List.mem_cons_self)
    refine banInv_setCall hinv ?_
    intro chunk hchunk q hq
    refine Clear.mono hages ?_
    rcases List.mem_cons.mp hchunk with rfl | hchunk
    · exact hready _ List.mem_cons_self q (List.mem_cons_of_mem p hq)
    · exact hready chunk (List.mem_cons_of_mem _ hchunk) q hq

theorem banInv_next {at' : Int} (h : BanInv s) (hc : s.calls.get c = some call)
    (hok : FindsRivals s (.next c at')) (hs : banNext hashtext s c at' call = some s') : BanInv s' := by
  have hready := h.calls c call hc
  cases call with
  | promoteReading env caller banId =>
    unfold banNext at hs
    dsimp only at hs
    split at hs
    · obtain rfl := Option.some.inj hs
      exact banInv_endCall h
    · obtain rfl := Option.some.inj hs
      exact banInv_setCall h trivial
  | staleReading w =>
    obtain rfl := Option.some.inj hs
    exact banInv_setCall h hready
  | deactivating reason chunks next => exact banInv_deactivating h hready hs
  | beginning w =>
    obtain rfl := Option.some.inj hs
    exact banInv_setCall h ⟨hready, le_rfl⟩
  | locking w began => exact banInv_locking h hready hs
  | screening w began => exact banInv_screening h hready hs
  | checking w began =>
    obtain rfl := Option.some.inj hs
    exact banInv_check h hready.1 hready.2 (finds_of_findsRivals hok hc)
  | writing w began => exact banInv_writing h hready hs
  | extending args t began current => exact banInv_extending h hready hs
  | committing =>
    obtain rfl := Option.some.inj hs
    exact banInv_endCall (banInv_commit h)
  | remoteSelecting o chunks => exact banInv_remoteSelecting h hready hs
  | remoteInserting o targets chunks => exact banInv_remoteInserting h hready hs
  | autoReading env policy candidates => exact banInv_autoReading h hs
  | autoChoosing policy free => exact banInv_autoChoosing h hready hs
  | autoInserting chunks => exact banInv_autoInserting h hready hs

theorem banInv_step {a : BanAction} (h : BanInv s) (hok : FindsRivals s a)
    (hs : banStep hashtext s a = some s') : BanInv s' := by
  cases a with
  | tick now =>
    rw [banStep] at hs
    split at hs
    · rename_i hle
      obtain rfl := Option.some.inj hs
      exact banInv_of h (h.rows.later hle) (Ages.refl _) hle fun _ _ hd => .inl hd
    · contradiction
  | setTables tables =>
    rw [banStep] at hs
    obtain rfl := Option.some.inj hs
    exact ⟨h.rows, h.calls⟩
  | create env c membershipChecked req at' =>
    rw [banStep] at hs
    split at hs
    · contradiction
    · obtain rfl := Option.some.inj hs
      exact banInv_start h trivial
  | promoteToGlobal env c banId =>
    rw [banStep] at hs
    obtain rfl := Option.some.inj hs
    exact banInv_start h trivial
  | createFromExternal env args =>
    rw [banStep] at hs
    split at hs
    · contradiction
    · rename_i t ht
      split at hs
      · contradiction
      · obtain rfl := Option.some.inj hs
        exact banInv_start h ((checkBanTarget_net ht).2.2.2 rfl)
  | createRemoteBans o targets =>
    rw [banStep] at hs
    obtain rfl := Option.some.inj hs
    exact banInv_start h trivial
  | createAutoBans env policy candidates =>
    rw [banStep] at hs
    obtain rfl := Option.some.inj hs
    exact banInv_start h trivial
  | deactivateBans ids reason =>
    rw [banStep] at hs
    obtain rfl := Option.some.inj hs
    exact banInv_start h trivial
  | next c at' =>
    rw [banStep] at hs
    obtain ⟨call, hc, hs⟩ := Option.bind_eq_some_iff.mp hs
    exact banInv_next h hc hok hs
  | abort c =>
    rw [banStep] at hs
    split at hs
    · obtain rfl := Option.some.inj hs
      exact banInv_fail h
    · contradiction

end step

/-! ## Runs -/

section runs
variable {hashtext : String → Int} {bans : Store BanRow} {tables : Db} {now : Int} {s : BanState}
  {as : List BanAction}

theorem banInv_init (hidle : ∀ i, (bans.cells i).working = none) (hindex : Unique activeIndex bans)
    (hone : OneLive bans now) : BanInv (.init bans tables now) := by
  refine ⟨⟨hindex, ?_, ?_, ?_⟩, ?_⟩
  · intro i t b hb
    rw [show ((BanState.init bans tables now).bans.cells i).working = none from hidle i] at hb
    contradiction
  · intro i t b b' hb'
    rw [show ((BanState.init bans tables now).bans.cells i).working = none from hidle i] at hb'
    contradiction
  · intro i j b b' hij hb hb' hunexpired hlive hgroup
    rcases hb' with hb' | ⟨t, hb'⟩
    · exact hij (hone i j b b' hb.committed hb' (live_iff.mpr ⟨hb.active, hunexpired⟩) hlive hgroup)
    · rw [show ((BanState.init bans tables now).bans.cells j).working = none from hidle j] at hb'
      contradiction
  · intro c call hc
    contradiction

/-- Whatever writers run beside each other, what a ban is about has one live row at most, as long as
each duplicate check recognises the live rows that its write must not join. -/
theorem one_live_row (hidle : ∀ i, (bans.cells i).working = none) (hindex : Unique activeIndex bans)
    (hone : OneLive bans now)
    (hok : StepsMeet (banStep hashtext) FindsRivals (.init bans tables now) as)
    (hrun : run (banStep hashtext) (.init bans tables now) as = some s) : OneLive s.bans s.now :=
  oneLive_of_rowsInv (run_invariant (fun _ _ _ h hok hs => banInv_step h hok hs)
    (banInv_init hidle hindex hone) hok hrun).rows

theorem oneLive_singleton (b : BanRow) (now : Int) : OneLive (.ofRows [b]) now := by
  intro i j r r' hr hr' _ _ _
  have hi := (List.getElem?_eq_some_iff.mp hr).1
  have hj := (List.getElem?_eq_some_iff.mp hr').1
  rw [List.length_singleton] at hi hj
  omega

/-- A ban of before, with the length of its network in the mask of `ip`. -/
def maskedRow (addr len : Nat) (h : addr < 2 ^ 32) (hl : len ≤ 32) : BanRow where
  id := 1
  target := ⟨⟨.v4, addr, len, h, hl⟩, none, by simp⟩
  reason := none
  banType := .manual
  scope := .global
  scopeId := none
  tenantId := none
  originTenantId := none
  originApp := none
  originRef := none
  bannedByUserId := none
  expiresAt := none
  isActive := true
  liftedAt := none
  liftReason := none

/-- The operator of the Default tenant bans a target. -/
def creates (ip : String) : BanAction :=
  .create ⟨none, none, [], [], []⟩ ⟨1, 1, true, true, none⟩ true ⟨some ip, none, none, none, none, none⟩ 0

/-- An app and the operator ban one address, after the operator has banned a network that is banned. -/
def twoWriters : List BanAction :=
  [creates "203.0.113.0/24",
    .createFromExternal ⟨none, none, [], [], []⟩ ⟨"198.51.100.7", none, "oblihub", none, 1⟩,
    creates "198.51.100.7"] ++ List.replicate 6 (BanAction.next 0 0) ++
    List.replicate 4 (BanAction.next 1 0) ++ List.replicate 3 (BanAction.next 2 0) ++ [BanAction.tick 5] ++
    List.replicate 4 (BanAction.next 1 5) ++ List.replicate 3 (BanAction.next 2 5)

/-- 203.0.113.0/24 is stored with its mask. -/
theorem one_live_row_twoWriters : ∃ s,
    run (banStep fun _ => 1) (.init (.ofRows [maskedRow 0xcb007100 24 (by decide) (by decide)])
      .empty 0) twoWriters = some s ∧ s.bans.seq = 2 ∧ OneLive s.bans s.now := by
  have hruns : (run (banStep fun _ => 1)
      (.init (.ofRows [maskedRow 0xcb007100 24 (by decide) (by decide)]) .empty 0) twoWriters).any
        (fun s => s.bans.seq == 2) = true := by decide +kernel
  obtain ⟨s, hs, hseq⟩ := (Option.any_eq_true _ _).mp hruns
  exact ⟨s, hs, beq_iff_eq.mp hseq, one_live_row (fun _ => rfl) (unique_singleton _)
    (oneLive_singleton _ _) (by decide +kernel) hs⟩

/-- The duplicate check does not recognise the ban of 203.0.113.0/24 that is stored as 203.0.113.5/24:
the network comes to have two live rows. -/
theorem live_row_doubled : ∃ bans tables now as s, (∀ i, (Store.cells bans i).working = none) ∧
    Unique activeIndex bans ∧ OneLive bans now ∧
      run (banStep fun _ => 1) (.init bans tables now) as = some s ∧ ¬ OneLive s.bans s.now := by
  have hruns : (run (banStep fun _ => 1)
      (.init (.ofRows [maskedRow 0xcb007105 24 (by decide) (by decide)]) .empty 0)
        (creates "203.0.113.0/24" :: List.replicate 8 (.next 0 0))).any (fun s =>
          (s.bans.cells 0).committed.any fun b => (s.bans.cells 1).committed.any fun b' =>
            b.live s.now && b'.live s.now && b.group == b'.group) = true := by decide +kernel
  obtain ⟨s, hs, hrows⟩ := (Option.any_eq_true _ _).mp hruns
  obtain ⟨b, hb, hrows⟩ := (Option.any_eq_true _ _).mp hrows
  obtain ⟨b', hb', hrows⟩ := (Option.any_eq_true _ _).mp hrows
  rw [Bool.and_eq_true, Bool.and_eq_true, beq_iff_eq] at hrows
  obtain ⟨⟨hlive, hlive'⟩, hgroup⟩ := hrows
  refine ⟨_, _, _, _, s, fun _ => rfl, unique_singleton _, oneLive_singleton _ _, hs, ?_⟩
  intro hone
  exact absurd (hone 0 1 b b' hb hb' hlive hlive' hgroup) (by decide)

end runs

end Obliguard.Server

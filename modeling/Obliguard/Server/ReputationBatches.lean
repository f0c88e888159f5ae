import Mathlib.Algebra.BigOperators.Group.List.Basic
import Mathlib.Data.Finset.Card
import Mathlib.Data.Finset.Lattice.Basic
import Obliguard.Server.IpReputation

/-!
# Batches of events

The statements that `upsertFromEvents` of `server/src/services/ipReputation.service.ts` runs for a batch, one for each
text of an address. What they count adds up (`Tally`), so that the rows do not depend on how the events were put into
batches, nor on the order of the statements (`summary_batches`).
-/

namespace Obliguard.Server

/-! ## The statements of a batch -/

/-- An event as `upsertFromEvents` gets it. -/
structure ReportedEvent where
  ip : String
  service : String
  username : Option String
  deviceId : Nat
  eventType : LogEventType

/-- The event, with the `inet` of its address. -/
def ReportedEvent.toBatchEvent (inet : String → Inet) (ev : ReportedEvent) : BatchEvent :=
  ⟨inet ev.ip, ev.service, ev.username, ev.deviceId, ev.eventType⟩

/-- The events of one device in one call. -/
structure ReportedBatch where
  now : Int
  deviceId : Nat
  events : List ReportedEvent
  device : ∀ ev ∈ events, ev.deviceId = deviceId

/-- The rows that a call inserts, one for each text of an address. -/
def ReportedBatch.statements (inet : String → Inet) (b : ReportedBatch) : List ReputationRow :=
  (distinct (b.events.map (·.ip))).map fun ip =>
    batchRow b.now (inet ip) ((b.events.filter fun ev => ev.ip = ip).map (·.toBatchEvent inet))

/-- The statement of a row; it is atomic. -/
def execute (t : Keyed ReputationRow.ip) (row : ReputationRow) : Keyed ReputationRow.ip :=
  t.upsert row (fun _ => true) (mergeRow row) (mergeRow_ip row)

/-! ## Tallies -/

/-- What is counted of an address. -/
@[ext] structure Tally where
  failures : Nat
  successes : Nat
  devices : Finset Nat
  services : Finset String
  usernames : Finset String
deriving DecidableEq

namespace Tally

instance : Zero Tally := ⟨⟨0, 0, ∅, ∅, ∅⟩⟩

instance : Add Tally :=
  ⟨fun a b => ⟨a.failures + b.failures, a.successes + b.successes, a.devices ∪ b.devices, a.services ∪ b.services,
    a.usernames ∪ b.usernames⟩⟩

theorem zero_def : (0 : Tally) = ⟨0, 0, ∅, ∅, ∅⟩ := rfl

theorem add_def (a b : Tally) : a + b = ⟨a.failures + b.failures, a.successes + b.successes, a.devices ∪ b.devices,
    a.services ∪ b.services, a.usernames ∪ b.usernames⟩ := rfl

instance : AddCommMonoid Tally where
  add_assoc a b c := by
    simp only [add_def, Nat.add_assoc, Finset.union_assoc]
  zero_add a := by
    simp only [add_def, zero_def, Nat.zero_add, Finset.empty_union]
  add_zero a := by
    simp only [add_def, zero_def, Nat.add_zero, Finset.union_empty]
  add_comm a b := by
    simp only [add_def, Nat.add_comm, Finset.union_comm]
  nsmul := nsmulRec

end Tally

/-- What an event counts. -/
def ReportedEvent.tally (ev : ReportedEvent) : Tally where
  failures := if ev.eventType = .authFailure then 1 else 0
  successes := if ev.eventType = .authSuccess then 1 else 0
  devices := {ev.deviceId}
  services := {ev.service}
  usernames := (ev.username.toList.filter (· ≠ "")).toFinset

/-- What a row counts. -/
def ReputationRow.tally (row : ReputationRow) : Tally where
  failures := row.totalFailures
  successes := row.totalSuccesses
  devices := row.affectedDeviceIds.toFinset
  services := row.affectedServices.toFinset
  usernames := row.attemptedUsernames.toFinset

/-- The row of an address: what it counts, and its number of agents. -/
def summary (t : Keyed ReputationRow.ip) (ip : Inet) : Option (Tally × Nat) :=
  (t.find ip).map fun row => (row.tally, row.affectedAgentsCount)

/-- What the table counts of an address. -/
def tallyAt (t : Keyed ReputationRow.ip) (ip : Inet) : Tally := ((summary t ip).map (·.1)).getD 0

theorem toFinset_distinct {α : Type} [DecidableEq α] (l : List α) : (distinct l).toFinset = l.toFinset := by
  ext a
  rw [List.mem_toFinset, List.mem_toFinset, mem_distinct]

theorem toFinset_aggDistinct {α : Type} [LinearOrder α] (l : List α) : (aggDistinct l).toFinset = l.toFinset := by
  ext a
  rw [List.mem_toFinset, List.mem_toFinset, aggDistinct, List.mem_insertionSort, mem_distinct]

theorem tally_mergeRow (excluded row : ReputationRow) : (mergeRow excluded row).tally = row.tally + excluded.tally := by
  simp only [ReputationRow.tally, mergeRow, Tally.add_def, toFinset_aggDistinct, List.toFinset_append]

theorem agents_mergeRow (excluded row : ReputationRow) :
    (mergeRow excluded row).affectedAgentsCount = (mergeRow excluded row).tally.devices.card := by
  have hnodup : (aggDistinct (row.affectedDeviceIds ++ excluded.affectedDeviceIds)).Nodup :=
    (List.perm_insertionSort _ _).nodup_iff.mpr (nodup_distinct _)
  exact (List.toFinset_card_of_nodup hnodup).symm

/-- A row as a statement inserts it. -/
def Inserts (row : ReputationRow) : Prop := row.affectedAgentsCount = row.tally.devices.card

theorem summary_execute {row : ReputationRow} (hrow : Inserts row) (t : Keyed ReputationRow.ip) (ip : Inet) :
    summary (execute t row) ip =
      if row.ip = ip then some (tallyAt t ip + row.tally, (tallyAt t ip + row.tally).devices.card)
      else summary t ip := by
  rw [summary, execute, Keyed.find_upsert]
  split
  · rw [tallyAt, summary]
    cases t.find ip with
    | none =>
      rw [Option.map_none, Option.map_none, Option.getD_none, zero_add, ← hrow]
      rfl
    | some old =>
      have hmerge := tally_mergeRow row old
      rw [Option.map_some, Option.map_some, Option.map_some, Option.getD_some, ← hmerge, ← agents_mergeRow]
      rfl
  · rfl

/-! ## Runs of statements -/

/-- What the rows of an address count together. -/
def countedAt (rows : List ReputationRow) (ip : Inet) : Tally :=
  (rows.map fun row => if row.ip = ip then row.tally else 0).sum

theorem tallyAt_of_summary {t : Keyed ReputationRow.ip} {ip : Inet} {a : Tally} {n : Nat}
    (h : summary t ip = some (a, n)) : tallyAt t ip = a := by
  rw [tallyAt, h]
  rfl

theorem summary_run {rows : List ReputationRow} (hrows : ∀ row ∈ rows, Inserts row) (t : Keyed ReputationRow.ip)
    (ip : Inet) : summary (rows.foldl execute t) ip =
      if ∃ row ∈ rows, row.ip = ip then
        some (tallyAt t ip + countedAt rows ip, (tallyAt t ip + countedAt rows ip).devices.card)
      else summary t ip := by
  induction rows generalizing t with
  | nil =>
    rw [if_neg]
    · rfl
    · rintro ⟨row, hrow, -⟩
      exact absurd hrow List.not_mem_nil
  | cons row rows ih =>
    obtain ⟨hrow, hrows⟩ := List.forall_mem_cons.mp hrows
    have hstep := summary_execute hrow t ip
    have hcons : (∃ r ∈ row :: rows, r.ip = ip) ↔ row.ip = ip ∨ ∃ r ∈ rows, r.ip = ip := by
      simp only [List.mem_cons, exists_eq_or_imp]
    have hcounted : countedAt (row :: rows) ip = (if row.ip = ip then row.tally else 0) + countedAt rows ip := by
      rw [countedAt, List.map_cons, List.sum_cons, countedAt]
    rw [List.foldl_cons, ih hrows, if_congr hcons rfl rfl, hcounted]
    by_cases hip : row.ip = ip
    · rw [if_pos hip] at hstep
      rw [tallyAt_of_summary hstep, hstep, if_pos (Or.inl hip), if_pos hip, add_assoc]
      split
      · rfl
      · -- no later row is of the address
        rename_i hnone
        have hzero : countedAt rows ip = 0 := by
          refine List.sum_eq_zero fun a ha => ?_
          obtain ⟨row', hmem, rfl⟩ := List.mem_map.mp ha
          exact if_neg fun heq => hnone ⟨row', hmem, heq⟩
        rw [hzero, add_zero]
    · rw [if_neg hip] at hstep
      have hsame : tallyAt (execute t row) ip = tallyAt t ip := by rw [tallyAt, hstep, tallyAt]
      rw [hsame, hstep, if_neg hip, zero_add]
      simp only [hip, false_or]

/-! ## The rows of a batch -/

theorem sum_groups {α κ M : Type} [DecidableEq κ] [AddCommMonoid M] (key : α → κ) (f : α → M) {ks : List κ}
    (hks : ks.Nodup) {l : List α} (h : ∀ a ∈ l, key a ∈ ks) :
    (ks.map fun k => ((l.filter fun a => key a = k).map f).sum).sum = (l.map f).sum := by
  induction ks generalizing l with
  | nil =>
    have hl : l = [] := List.eq_nil_iff_forall_not_mem.mpr fun a ha => List.not_mem_nil (h a ha)
    rw [hl]
    rfl
  | cons k ks ih =>
    obtain ⟨hk, hks⟩ := List.nodup_cons.mp hks
    have hrest : ∀ a ∈ l.filter (fun a => !decide (key a = k)), key a ∈ ks := by
      intro a ha
      obtain ⟨hmem, hne⟩ := List.mem_filter.mp ha
      rcases List.mem_cons.mp (h a hmem) with heq | hmem
      · simp [heq] at hne
      · exact hmem
    have hgroups : (ks.map fun k' => ((l.filter fun a => key a = k').map f).sum) =
        ks.map fun k' => (((l.filter fun a => !decide (key a = k)).filter fun a => key a = k').map f).sum := by
      refine List.map_congr_left fun k' hk' => ?_
      have hne : k' ≠ k := fun heq => hk (heq ▸ hk')
      rw [List.filter_filter]
      congr 2
      refine List.filter_congr fun a _ => ?_
      by_cases heq : key a = k'
      · simp [heq, hne]
      · simp [heq]
    have hsplit := ((List.filter_append_perm (fun a => decide (key a = k)) l).map f).sum_eq
    rw [List.map_cons, List.sum_cons, hgroups, ih hks hrest, ← hsplit, List.map_append, List.sum_append]

theorem sum_tally (evs : List ReportedEvent) : (evs.map fun ev => ev.tally).sum =
    ⟨evs.countP fun ev => ev.eventType = .authFailure, evs.countP fun ev => ev.eventType = .authSuccess,
      (evs.map (·.deviceId)).toFinset, (evs.map (·.service)).toFinset,
      ((evs.filterMap (·.username)).filter (· ≠ "")).toFinset⟩ := by
  induction evs with
  | nil => rfl
  | cons ev evs ih =>
    have hnames : (((ev :: evs).filterMap (·.username)).filter (· ≠ "")) =
        ev.username.toList.filter (· ≠ "") ++ (evs.filterMap (·.username)).filter (· ≠ "") := by
      cases hname : ev.username with
      | none => rw [List.filterMap_cons_none hname, Option.toList_none, List.filter_nil, List.nil_append]
      | some u =>
        rw [List.filterMap_cons_some hname, Option.toList_some, ← List.filter_append, List.singleton_append]
    rw [List.map_cons, List.sum_cons, ih, hnames, ReportedEvent.tally, Tally.add_def]
    simp only [List.countP_cons, List.map_cons, List.toFinset_cons, List.toFinset_append, decide_eq_true_eq,
      Finset.insert_eq, Nat.add_comm]

theorem tally_batchRow (inet : String → Inet) (now : Int) (ip : Inet) {evs : List ReportedEvent} {d : Nat}
    (hd : ∀ ev ∈ evs, ev.deviceId = d) (hne : evs ≠ []) :
    (batchRow now ip (evs.map (·.toBatchEvent inet))).tally = (evs.map fun ev => ev.tally).sum ∧
      Inserts (batchRow now ip (evs.map (·.toBatchEvent inet))) := by
  have hlast : ((evs.map (·.toBatchEvent inet)).getLast?.map (·.deviceId)).toList = [d] := by
    rw [List.getLast?_map, List.getLast?_eq_some_getLast hne, Option.map_some, Option.map_some, Option.toList_some]
    exact congrArg (fun n => [n]) (hd _ (List.getLast_mem hne))
  have hdevices : (evs.map (·.deviceId)).toFinset = {d} := by
    ext n
    rw [List.mem_toFinset, Finset.mem_singleton, List.mem_map]
    constructor
    · rintro ⟨ev, hev, rfl⟩
      exact hd ev hev
    · rintro rfl
      obtain ⟨ev, hev⟩ := List.exists_mem_of_ne_nil evs hne
      exact ⟨ev, hev, hd ev hev⟩
  constructor
  · rw [sum_tally, hdevices, ReputationRow.tally, batchRow]
    dsimp only
    rw [hlast, List.countP_map, List.countP_map, List.map_map, List.filterMap_map, toFinset_distinct,
      toFinset_distinct]
    rfl
  · rw [Inserts, ReputationRow.tally, batchRow]
    dsimp only
    rw [hlast]
    rfl

section batch
variable (inet : String → Inet) (b : ReportedBatch)

theorem of_mem_statements {row : ReputationRow} (h : row ∈ b.statements inet) : Inserts row ∧
    ∃ ev ∈ b.events, inet ev.ip = row.ip := by
  obtain ⟨text, htext, rfl⟩ := List.mem_map.mp h
  rw [mem_distinct, List.mem_map] at htext
  obtain ⟨ev, hev, rfl⟩ := htext
  have hne : (b.events.filter fun e => e.ip = ev.ip) ≠ [] :=
    List.ne_nil_of_mem (List.mem_filter.mpr ⟨hev, decide_eq_true rfl⟩)
  have hd : ∀ e ∈ b.events.filter (fun e => e.ip = ev.ip), e.deviceId = b.deviceId := fun e he =>
    b.device e (List.mem_of_mem_filter he)
  exact ⟨(tally_batchRow inet b.now _ hd hne).2, ev, hev, rfl⟩

theorem exists_statement {ev : ReportedEvent} (h : ev ∈ b.events) : ∃ row ∈ b.statements inet, row.ip = inet ev.ip :=
  ⟨_, List.mem_map_of_mem (mem_distinct.mpr (List.mem_map_of_mem h)), rfl⟩

theorem countedAt_statements (ip : Inet) :
    countedAt (b.statements inet) ip = (b.events.map fun ev => if inet ev.ip = ip then ev.tally else 0).sum := by
  have hkeys : ∀ ev ∈ b.events, ev.ip ∈ distinct (b.events.map (·.ip)) := fun ev hev =>
    mem_distinct.mpr (List.mem_map_of_mem hev)
  rw [← sum_groups (fun ev : ReportedEvent => ev.ip) _ (nodup_distinct (b.events.map (·.ip))) hkeys, countedAt,
    ReportedBatch.statements, List.map_map]
  congr 1
  refine List.map_congr_left fun text htext => ?_
  rw [mem_distinct, List.mem_map] at htext
  obtain ⟨ev, hev, rfl⟩ := htext
  have hne : (b.events.filter fun e => e.ip = ev.ip) ≠ [] :=
    List.ne_nil_of_mem (List.mem_filter.mpr ⟨hev, decide_eq_true rfl⟩)
  have hd : ∀ e ∈ b.events.filter (fun e => e.ip = ev.ip), e.deviceId = b.deviceId := fun e he =>
    b.device e (List.mem_of_mem_filter he)
  have hsame : ∀ e ∈ b.events.filter (fun e => e.ip = ev.ip),
      (if inet e.ip = ip then e.tally else 0) = if inet ev.ip = ip then e.tally else 0 := by
    intro e he
    rw [of_decide_eq_true (List.mem_filter.mp he).2]
  show (if inet ev.ip = ip then (batchRow b.now (inet ev.ip) _).tally else 0) = _
  rw [List.map_congr_left hsame, (tally_batchRow inet b.now _ hd hne).1]
  split
  · rfl
  · rw [List.map_const', List.sum_replicate, nsmul_zero]

end batch

/-! ## Any batches, in any order -/

/-- What events count together at an address. -/
def reportedAt (inet : String → Inet) (evs : List ReportedEvent) (ip : Inet) : Tally :=
  (evs.map fun ev => if inet ev.ip = ip then ev.tally else 0).sum

theorem countedAt_flatMap (inet : String → Inet) (bs : List ReportedBatch) (ip : Inet) :
    countedAt (bs.flatMap (·.statements inet)) ip = reportedAt inet (bs.flatMap (·.events)) ip := by
  induction bs with
  | nil => rfl
  | cons b bs ih =>
    have hhead := countedAt_statements inet b ip
    rw [countedAt, reportedAt] at ih
    rw [countedAt] at hhead
    rw [countedAt, reportedAt, List.flatMap_cons, List.flatMap_cons, List.map_append, List.map_append,
      List.sum_append, List.sum_append, hhead, ih]

/-- A run of the statements of batches, in any order, counts the events. -/
theorem summary_batches (inet : String → Inet) (t : Keyed ReputationRow.ip) {bs : List ReportedBatch}
    {rows : List ReputationRow} (hrows : rows.Perm (bs.flatMap (·.statements inet))) (ip : Inet) :
    summary (rows.foldl execute t) ip =
      if ∃ ev ∈ bs.flatMap (·.events), inet ev.ip = ip then
        some (tallyAt t ip + reportedAt inet (bs.flatMap (·.events)) ip,
          (tallyAt t ip + reportedAt inet (bs.flatMap (·.events)) ip).devices.card)
      else summary t ip := by
  have hinserts : ∀ row ∈ rows, Inserts row := by
    intro row hrow
    obtain ⟨b, -, hrow⟩ := List.mem_flatMap.mp (hrows.mem_iff.mp hrow)
    exact (of_mem_statements inet b hrow).1
  have hexists : (∃ row ∈ rows, row.ip = ip) ↔ ∃ ev ∈ bs.flatMap (·.events), inet ev.ip = ip := by
    constructor
    · rintro ⟨row, hrow, rfl⟩
      obtain ⟨b, hb, hrow⟩ := List.mem_flatMap.mp (hrows.mem_iff.mp hrow)
      obtain ⟨-, ev, hev, hip⟩ := of_mem_statements inet b hrow
      exact ⟨ev, List.mem_flatMap.mpr ⟨b, hb, hev⟩, hip⟩
    · rintro ⟨ev, hev, rfl⟩
      obtain ⟨b, hb, hev⟩ := List.mem_flatMap.mp hev
      obtain ⟨row, hrow, hip⟩ := exists_statement inet b hev
      exact ⟨row, hrows.mem_iff.mpr (List.mem_flatMap.mpr ⟨b, hb, hrow⟩), hip⟩
  have hcounted : countedAt rows ip = reportedAt inet (bs.flatMap (·.events)) ip := by
    rw [countedAt, (hrows.map _).sum_eq]
    exact countedAt_flatMap inet bs ip
  rw [summary_run hinserts, if_congr hexists rfl rfl, hcounted]

/-- Batches of the same events leave the same counts, in whatever order their statements run, those of different calls
interleaved. -/
theorem summary_eq_of_events (inet : String → Inet) (t : Keyed ReputationRow.ip) (bs bs' : List ReportedBatch)
    (hevents : (bs.flatMap (·.events)).Perm (bs'.flatMap (·.events))) (rows rows' : List ReputationRow)
    (hrows : rows.Perm (bs.flatMap (·.statements inet))) (hrows' : rows'.Perm (bs'.flatMap (·.statements inet))) :
    ∀ ip, summary (rows.foldl execute t) ip = summary (rows'.foldl execute t) ip := by
  intro ip
  have hexists : (∃ ev ∈ bs.flatMap (·.events), inet ev.ip = ip) ↔ ∃ ev ∈ bs'.flatMap (·.events), inet ev.ip = ip := by
    simp only [hevents.mem_iff]
  have hreported : reportedAt inet (bs.flatMap (·.events)) ip = reportedAt inet (bs'.flatMap (·.events)) ip :=
    (hevents.map _).sum_eq
  rw [summary_batches inet t hrows, summary_batches inet t hrows', if_congr hexists rfl rfl, hreported]

/-! ## One call -/

theorem upsertFromEvents_eq (inet : String → Inet) (b : ReportedBatch) (t : Keyed ReputationRow.ip)
    (hinet : ∀ ev ∈ b.events, ∀ ev' ∈ b.events, inet ev.ip = inet ev'.ip → ev.ip = ev'.ip) :
    upsertFromEvents b.now (b.events.map (·.toBatchEvent inet)) t = (b.statements inet).foldl execute t := by
  have htexts : ∀ x ∈ b.events.map (·.ip), ∀ y ∈ b.events.map (·.ip), inet x = inet y → x = y := by
    intro x hx y hy
    obtain ⟨ev, hev, rfl⟩ := List.mem_map.mp hx
    obtain ⟨ev', hev', rfl⟩ := List.mem_map.mp hy
    exact hinet ev hev ev' hev'
  have hips : (b.events.map (·.toBatchEvent inet)).map (·.ip) = (b.events.map (·.ip)).map inet := by
    rw [List.map_map, List.map_map]
    rfl
  rw [upsertFromEvents, hips, distinct_map htexts, List.foldl_map, ReportedBatch.statements, List.foldl_map]
  refine List.foldl_ext _ _ t fun t text htext => ?_
  have hfilter : (b.events.map (·.toBatchEvent inet)).filter (fun ev => ev.ip = inet text) =
      (b.events.filter fun ev => ev.ip = text).map (·.toBatchEvent inet) := by
    rw [List.filter_map]
    congr 1
    refine List.filter_congr fun ev hev => ?_
    rw [Function.comp_apply, decide_eq_decide]
    constructor
    · exact htexts _ (List.mem_map_of_mem hev) _ (mem_distinct.mp htext)
    · intro heq
      rw [← heq]
      rfl
  rw [hfilter, execute]

/-- A failure for one user name. -/
def sampleEvent (deviceId : Nat) : ReportedEvent := ⟨"192.0.2.1", "ssh", some "root", deviceId, .authFailure⟩

def sampleBatch (deviceId count : Nat) : ReportedBatch where
  now := 0
  deviceId := deviceId
  events := List.replicate count (sampleEvent deviceId)
  device := by
    intro ev hev
    rw [List.eq_of_mem_replicate hev]
    rfl

theorem summary_eq_of_events_sample :
    summary (([sampleBatch 1 2, sampleBatch 2 1].flatMap (·.statements fun _ => Inet.ofNet sampleHost)).foldl execute
      Keyed.empty) (Inet.ofNet sampleHost) =
    summary (([sampleBatch 2 1, sampleBatch 1 1, sampleBatch 1 1].flatMap
      (·.statements fun _ => Inet.ofNet sampleHost)).foldl execute Keyed.empty) (Inet.ofNet sampleHost) := by
  have hevents : ([sampleEvent 1, sampleEvent 1] ++ [sampleEvent 2]).Perm
      ([sampleEvent 2] ++ [sampleEvent 1, sampleEvent 1]) := List.perm_append_comm
  exact summary_eq_of_events (fun _ => Inet.ofNet sampleHost) Keyed.empty [sampleBatch 1 2, sampleBatch 2 1]
    [sampleBatch 2 1, sampleBatch 1 1, sampleBatch 1 1] hevents _ _ (List.Perm.refl _) (List.Perm.refl _)
    (Inet.ofNet sampleHost)

end Obliguard.Server

import Obliguard.Lib.Numeral
import Obliguard.Lib.Selection
import Obliguard.Lib.Separators
import Obliguard.Server.RateLimitSync

/-!
# Rate limit policies

`resolveForAgent` of `server/src/services/rateLimitPolicy.service.ts`, over the rows of `rate_limit_policies`. The rule
of a type and port is that of the policy which prevails (`Prevails`): of the policies that apply to the device, the
oldest one of the most specific scope. What does not apply to the device changes nothing
(`resolveForAgent_spec`).
-/

namespace Obliguard.Server.RateLimitPolicies

open Numeral

inductive RateLimitScope
  | global | tenant | group | agent
deriving DecidableEq

structure RateLimitPolicyRow where
  id : Nat
  type : RateLimitType
  scope : RateLimitScope
  scopeId : Option Nat
  tenantId : Option Nat
  enabled : Bool
  port : Option Nat
  maxValue : Nat
  banMultiplier : Option Nat
  action : RateLimitAction
  banTtlSeconds : Option Nat
  createdAt : Int
deriving DecidableEq

/-- `rate_limit_policies`, where no two policies were created at one time. -/
structure PolicyTable where
  rows : List RateLimitPolicyRow
  created : (rows.map (·.createdAt)).Nodup

/-- What `rowToPolicy` takes over into a rule. -/
def ruleOf (row : RateLimitPolicyRow) : RateLimitRule :=
  ⟨row.type, row.port, row.maxValue, row.banMultiplier, row.action, row.banTtlSeconds⟩

def typeText : RateLimitType → List Char
  | .connection => "connection".toList
  | .rate => "rate".toList
  | .volume => "volume".toList

def portText : Option Nat → List Char
  | none => "all".toList
  | some port => Nat.toDigits 10 port

/-- The key of `resolved`. -/
def keyOf (row : RateLimitPolicyRow) : List Char := typeText row.type ++ ':' :: portText row.port

/-- `collect`; the map keeps its entries in the order in which they were set. -/
def collect (resolved : List (List Char × RateLimitRule)) (rows : List RateLimitPolicyRow) :
    List (List Char × RateLimitRule) :=
  rows.foldl
    (fun resolved row =>
      if !row.enabled then resolved
      else if resolved.any fun e => e.1 = keyOf row then resolved
      else resolved ++ [(keyOf row, ruleOf row)])
    resolved

/-- The rows of a `where`, by the time they were created. -/
def select (p : RateLimitPolicyRow → Bool) (t : PolicyTable) : List RateLimitPolicyRow :=
  (t.rows.filter p).insertionSort fun a b => a.createdAt ≤ b.createdAt

def agentQuery (deviceId tenantId : Nat) (row : RateLimitPolicyRow) : Bool :=
  row.scope = .agent && row.scopeId = some deviceId && row.tenantId = some tenantId && row.enabled

def groupQuery (tenantId groupId : Nat) (row : RateLimitPolicyRow) : Bool :=
  row.scope = .group && row.scopeId = some groupId && row.tenantId = some tenantId && row.enabled

def tenantQuery (tenantId : Nat) (row : RateLimitPolicyRow) : Bool :=
  row.scope = .tenant && row.tenantId = some tenantId && row.enabled

def globalQuery (row : RateLimitPolicyRow) : Bool := row.scope = .global && row.enabled

/-- `resolveForAgent`; `enforcement` is whether the switch is on. -/
def resolveForAgent (enforcement ignoreEnforcement : Bool) (t : PolicyTable) (deviceId : Nat) (groupIds : List Nat)
    (tenantId : Nat) : List RateLimitRule :=
  if !ignoreEnforcement && !enforcement then []
  else
    let resolved := collect [] (select (agentQuery deviceId tenantId) t)
    let resolved := groupIds.foldl (fun resolved g => collect resolved (select (groupQuery tenantId g) t)) resolved
    let resolved := collect resolved (select (tenantQuery tenantId) t)
    let resolved := collect resolved (select globalQuery t)
    resolved.map (·.2)

/-! ## Which policy prevails -/

/-- The policy applies to a device with its groups, the closest one first, and its tenant. -/
def Applies (deviceId : Nat) (groupIds : List Nat) (tenantId : Nat) (row : RateLimitPolicyRow) : Prop :=
  match row.scope with
  | .agent => row.scopeId = some deviceId ∧ row.tenantId = some tenantId
  | .group => (∃ g ∈ groupIds, row.scopeId = some g) ∧ row.tenantId = some tenantId
  | .tenant => row.tenantId = some tenantId
  | .global => True

/-- How far the scope of a policy is from the device. -/
def distance (groupIds : List Nat) (row : RateLimitPolicyRow) : Nat :=
  match row.scope with
  | .agent => 0
  | .group => 1 + (row.scopeId.map groupIds.idxOf).getD 0
  | .tenant => 1 + groupIds.length
  | .global => 2 + groupIds.length

/-- An enabled policy that applies to the device. -/
def Eligible (t : PolicyTable) (deviceId : Nat) (groupIds : List Nat) (tenantId : Nat) (row : RateLimitPolicyRow) :
    Prop :=
  row ∈ t.rows ∧ row.enabled = true ∧ Applies deviceId groupIds tenantId row

/-- Of the enabled policies that apply to the device for a type and port, the oldest one of the closest scope. -/
def Prevails (t : PolicyTable) (deviceId : Nat) (groupIds : List Nat) (tenantId : Nat) (row : RateLimitPolicyRow) :
    Prop :=
  Eligible t deviceId groupIds tenantId row ∧
    ∀ other, Eligible t deviceId groupIds tenantId other → (other.type, other.port) = (row.type, row.port) →
      distance groupIds row < distance groupIds other ∨
        distance groupIds row = distance groupIds other ∧ row.createdAt ≤ other.createdAt

/-! ## Keys -/

theorem typeText_no_colon (ty : RateLimitType) : ':' ∉ typeText ty := by
  cases ty <;> decide

theorem typeText_injective {a b : RateLimitType} (h : typeText a = typeText b) : a = b := by
  revert h
  cases a <;> cases b <;> decide

theorem portText_injective {p q : Option Nat} (h : portText p = portText q) : p = q := by
  have hall : ∀ n : Nat, "all".toList ≠ Nat.toDigits 10 n := by
    intro n heq
    have hdigit := Nat.isDigit_of_mem_toDigits (by decide) (Nat.le_refl 10) (n := n) (c := 'a')
    rw [← heq] at hdigit
    exact absurd (hdigit (by decide)) (by decide)
  cases p with
  | none =>
    cases q with
    | none => rfl
    | some q => exact absurd h (hall q)
  | some p =>
    cases q with
    | none => exact absurd h.symm (hall p)
    | some q =>
      have hdigits : Nat.toDigits 10 p = Nat.toDigits 10 q := h
      rw [← ofDigits_toDigits (b := 10) (by decide) (by decide) p, hdigits,
        ofDigits_toDigits (b := 10) (by decide) (by decide)]

theorem keyOf_eq_iff {a b : RateLimitPolicyRow} : keyOf a = keyOf b ↔ (a.type, a.port) = (b.type, b.port) := by
  constructor
  · intro h
    obtain ⟨htype, hport⟩ := append_cons_inj (typeText_no_colon a.type) (typeText_no_colon b.type) h
    rw [typeText_injective htype, portText_injective hport]
  · intro h
    obtain ⟨htype, hport⟩ := Prod.mk.inj h
    rw [keyOf, keyOf, htype, hport]

/-! ## First writer wins -/

/-- The row has the key, and is not left out. -/
def Writes (key : List Char) (row : RateLimitPolicyRow) : Prop := row.enabled = true ∧ keyOf row = key

theorem collect_cons (resolved : List (List Char × RateLimitRule)) (row : RateLimitPolicyRow)
    (rows : List RateLimitPolicyRow) : collect resolved (row :: rows) = collect (collect resolved [row]) rows := rfl

theorem collect_append (resolved : List (List Char × RateLimitRule)) (xs ys : List RateLimitPolicyRow) :
    collect resolved (xs ++ ys) = collect (collect resolved xs) ys := List.foldl_append

theorem collect_singleton (resolved : List (List Char × RateLimitRule)) (row : RateLimitPolicyRow) :
    collect resolved [row] = resolved ∧ (row.enabled = false ∨ keyOf row ∈ resolved.map (·.1)) ∨
      collect resolved [row] = resolved ++ [(keyOf row, ruleOf row)] ∧ row.enabled = true ∧
        keyOf row ∉ resolved.map (·.1) := by
  have hmem : resolved.any (fun e => e.1 = keyOf row) = true ↔ keyOf row ∈ resolved.map (·.1) := by
    rw [List.any_eq_true, List.mem_map]
    simp only [decide_eq_true_eq]
  rw [collect, List.foldl_cons, List.foldl_nil]
  split
  · rename_i henabled
    exact .inl ⟨rfl, .inl (by simpa using henabled)⟩
  · rename_i henabled
    split
    · rename_i hany
      exact .inl ⟨rfl, .inr (hmem.mp hany)⟩
    · rename_i hany
      exact .inr ⟨rfl, by simpa using henabled, fun h => hany (hmem.mpr h)⟩

theorem nodup_collect {resolved : List (List Char × RateLimitRule)} (h : (resolved.map (·.1)).Nodup)
    (rows : List RateLimitPolicyRow) : ((collect resolved rows).map (·.1)).Nodup := by
  induction rows generalizing resolved with
  | nil => exact h
  | cons row rows ih =>
    rw [collect_cons]
    rcases collect_singleton resolved row with ⟨hsame, -⟩ | ⟨hnew, -, hkey⟩
    · rw [hsame]
      exact ih h
    · rw [hnew]
      refine ih ?_
      rw [List.map_append, List.map_singleton]
      exact List.nodup_append_comm.mp (List.nodup_cons.mpr ⟨hkey, h⟩)

theorem mem_collect {resolved : List (List Char × RateLimitRule)} {rows : List RateLimitPolicyRow} {key : List Char}
    {rule : RateLimitRule} : (key, rule) ∈ collect resolved rows ↔ (key, rule) ∈ resolved ∨
      key ∉ resolved.map (·.1) ∧ ∃ row, FirstWith (Writes key) rows row ∧ ruleOf row = rule := by
  induction rows generalizing resolved with
  | nil =>
    refine ⟨.inl, ?_⟩
    rintro (h | ⟨-, row, hrow, -⟩)
    · exact h
    · exact absurd hrow FirstWith.not_nil
  | cons row rows ih =>
    rw [collect_cons, ih]
    simp only [FirstWith.cons_iff]
    rcases collect_singleton resolved row with ⟨hsame, hold⟩ | ⟨hnew, henabled, hkey⟩
    · -- the row leaves the entries as they are
      rw [hsame]
      refine or_congr_right (and_congr_right fun hnot => exists_congr fun a => and_congr_left fun _ => ?_)
      have hwrites : ¬Writes key row := by
        rintro ⟨henabled, rfl⟩
        rcases hold with hold | hold
        · rw [henabled] at hold
          contradiction
        · exact hnot hold
      simp only [hwrites, false_and, false_or, not_false_iff, true_and]
    · rw [hnew, List.map_append, List.map_singleton, List.mem_append, List.mem_append, List.mem_singleton,
        List.mem_singleton, Prod.mk.injEq, not_or]
      by_cases hsame : key = keyOf row
      · subst hsame
        have hwrites : Writes (keyOf row) row := ⟨henabled, rfl⟩
        have hnone : (keyOf row, rule) ∉ resolved := fun h => hkey (List.mem_map_of_mem (f := (·.1)) h)
        simp only [hwrites, hnone, hkey, not_true, not_false_iff, true_and, false_and, and_false, false_or, or_false]
        constructor
        · rintro rfl
          exact ⟨row, rfl, rfl⟩
        · rintro ⟨a, rfl, h⟩
          exact h.symm
      · have hwrites : ¬Writes key row := fun h => hsame h.2.symm
        simp only [hwrites, hsame, not_false_iff, true_and, false_and, false_or, or_false, and_true]

/-! ## The queries -/

section queries
variable {t t' : PolicyTable} {deviceId tenantId : Nat} {groupIds : List Nat} {row : RateLimitPolicyRow}

/-- The queries, in their order. -/
def queries (deviceId : Nat) (groupIds : List Nat) (tenantId : Nat) : List (RateLimitPolicyRow → Bool) :=
  agentQuery deviceId tenantId :: (groupIds.map (groupQuery tenantId) ++ [tenantQuery tenantId, globalQuery])

theorem foldl_collect_groups (resolved : List (List Char × RateLimitRule)) :
    groupIds.foldl (fun resolved g => collect resolved (select (groupQuery tenantId g) t)) resolved =
      collect resolved ((groupIds.map (groupQuery tenantId)).flatMap fun q => select q t) := by
  induction groupIds generalizing resolved with
  | nil => rfl
  | cons g groupIds ih => rw [List.foldl_cons, ih, List.map_cons, List.flatMap_cons, collect_append]

theorem resolveForAgent_on (ignoreEnforcement : Bool) :
    resolveForAgent true ignoreEnforcement t deviceId groupIds tenantId =
    (collect [] ((queries deviceId groupIds tenantId).flatMap fun q => select q t)).map (·.2) := by
  rw [resolveForAgent, if_neg (by simp), queries, List.flatMap_cons, List.flatMap_append, List.flatMap_cons,
    List.flatMap_singleton, collect_append, collect_append, collect_append, ← foldl_collect_groups]

theorem mem_select {p : RateLimitPolicyRow → Bool} : row ∈ select p t ↔ row ∈ t.rows ∧ p row = true := by
  rw [select, List.mem_insertionSort, List.mem_filter]

theorem pairwise_select (p : RateLimitPolicyRow → Bool) :
    (select p t).Pairwise fun a b => a.createdAt ≤ b.createdAt := by
  have : IsTrans RateLimitPolicyRow fun a b => a.createdAt ≤ b.createdAt := ⟨fun _ _ _ => le_trans⟩
  have : Std.Total fun a b : RateLimitPolicyRow => a.createdAt ≤ b.createdAt := ⟨fun a b => le_total _ _⟩
  exact List.pairwise_insertionSort _ _

theorem select_congr {p : RateLimitPolicyRow → Bool} (h : ∀ row, p row = true → (row ∈ t.rows ↔ row ∈ t'.rows)) :
    select p t = select p t' := by
  have hnodup : ∀ u : PolicyTable, (select p u).Nodup := fun u =>
    (List.perm_insertionSort _ _).nodup_iff.mpr ((List.Nodup.of_map _ u.created).filter _)
  have hperm : (select p t).Perm (select p t') := by
    rw [List.perm_ext_iff_of_nodup (hnodup t) (hnodup t')]
    intro row
    rw [mem_select, mem_select]
    exact and_congr_left (h row)
  refine hperm.eq_of_pairwise ?_ (pairwise_select p) (pairwise_select p)
  intro a b ha hb hab hba
  have ha := (mem_select.mp ((hperm.mem_iff).mp ha)).1
  exact List.inj_on_of_nodup_map t'.created ha (mem_select.mp hb).1 (le_antisymm hab hba)

theorem getElem?_distance (henabled : row.enabled = true) (h : Applies deviceId groupIds tenantId row) :
    ∃ q, (queries deviceId groupIds tenantId)[distance groupIds row]? = some q ∧ q row = true := by
  unfold Applies at h
  unfold distance queries
  cases hscope : row.scope with
  | agent =>
    rw [hscope] at h
    exact ⟨_, rfl, by simp [agentQuery, hscope, h.1, h.2, henabled]⟩
  | group =>
    rw [hscope] at h
    obtain ⟨⟨g, hg, hid⟩, htenant⟩ := h
    have hlt : groupIds.idxOf g < groupIds.length := List.idxOf_lt_length_of_mem hg
    refine ⟨groupQuery tenantId g, ?_, by simp [groupQuery, hscope, hid, htenant, henabled]⟩
    dsimp only
    rw [hid, Option.map_some, Option.getD_some, Nat.add_comm, List.getElem?_cons_succ,
      List.getElem?_append_left (by rw [List.length_map]; exact hlt), List.getElem?_map,
      List.getElem?_eq_getElem hlt, List.getElem_idxOf hlt]
    rfl
  | tenant =>
    rw [hscope] at h
    refine ⟨tenantQuery tenantId, ?_, by simp [tenantQuery, hscope, h, henabled]⟩
    dsimp only
    rw [Nat.add_comm, List.getElem?_cons_succ, List.getElem?_append_right (by rw [List.length_map]), List.length_map,
      Nat.sub_self]
    rfl
  | global =>
    refine ⟨globalQuery, ?_, by simp [globalQuery, hscope, henabled]⟩
    dsimp only
    rw [Nat.add_comm, List.getElem?_cons_succ, List.getElem?_append_right (by rw [List.length_map]; omega),
      List.length_map, Nat.add_sub_cancel_left]
    rfl

theorem idxOf_getElem_le {l : List Nat} {j : Nat} (hj : j < l.length) : l.idxOf l[j] ≤ j := by
  by_contra hlt
  have hnot := List.not_of_lt_findIdx (not_le.mp hlt)
  exact Bool.false_ne_true (hnot.symm.trans BEq.rfl)

/-- What a query selects is eligible, and no farther than the query. -/
theorem of_query {i : Nat} {q : RateLimitPolicyRow → Bool} (hq : (queries deviceId groupIds tenantId)[i]? = some q)
    (h : q row = true) :
    row.enabled = true ∧ Applies deviceId groupIds tenantId row ∧ distance groupIds row ≤ i := by
  unfold Applies distance
  cases i with
  | zero =>
    obtain rfl := Option.some.inj hq
    simp only [agentQuery, Bool.and_eq_true, decide_eq_true_eq] at h
    obtain ⟨⟨⟨hscope, hid⟩, htenant⟩, henabled⟩ := h
    rw [hscope]
    exact ⟨henabled, ⟨hid, htenant⟩, le_rfl⟩
  | succ j =>
    rw [queries, List.getElem?_cons_succ] at hq
    by_cases hj : j < groupIds.length
    · rw [List.getElem?_append_left (by rw [List.length_map]; exact hj), List.getElem?_map,
        List.getElem?_eq_getElem hj] at hq
      obtain rfl := Option.some.inj hq
      simp only [groupQuery, Bool.and_eq_true, decide_eq_true_eq] at h
      obtain ⟨⟨⟨hscope, hid⟩, htenant⟩, henabled⟩ := h
      have hle := idxOf_getElem_le hj
      rw [hscope, hid]
      refine ⟨henabled, ⟨⟨_, List.getElem_mem hj, rfl⟩, htenant⟩, ?_⟩
      dsimp only [Option.map_some, Option.getD_some]
      omega
    · obtain ⟨k, rfl⟩ := Nat.exists_eq_add_of_le (not_lt.mp hj)
      rw [List.getElem?_append_right (by rw [List.length_map]; omega), List.length_map, Nat.add_sub_cancel_left] at hq
      cases k with
      | zero =>
        obtain rfl := Option.some.inj hq
        simp only [tenantQuery, Bool.and_eq_true, decide_eq_true_eq] at h
        obtain ⟨⟨hscope, htenant⟩, henabled⟩ := h
        rw [hscope]
        exact ⟨henabled, htenant, by dsimp only; omega⟩
      | succ k =>
        cases k with
        | zero =>
          obtain rfl := Option.some.inj hq
          simp only [globalQuery, Bool.and_eq_true, decide_eq_true_eq] at h
          obtain ⟨hscope, henabled⟩ := h
          rw [hscope]
          exact ⟨henabled, trivial, by dsimp only; omega⟩
        | succ k => contradiction

/-- The rows in the order of the queries. -/
def chain (t : PolicyTable) (deviceId : Nat) (groupIds : List Nat) (tenantId : Nat) : List RateLimitPolicyRow :=
  (queries deviceId groupIds tenantId).flatMap fun q => select q t

theorem mem_chain : row ∈ chain t deviceId groupIds tenantId ↔ Eligible t deviceId groupIds tenantId row := by
  rw [chain, List.mem_flatMap]
  constructor
  · rintro ⟨q, hq, hrow⟩
    obtain ⟨i, hi⟩ := List.mem_iff_getElem?.mp hq
    obtain ⟨hmem, hsel⟩ := mem_select.mp hrow
    obtain ⟨henabled, happlies, -⟩ := of_query hi hsel
    exact ⟨hmem, henabled, happlies⟩
  · rintro ⟨hmem, henabled, happlies⟩
    obtain ⟨q, hq, hsel⟩ := getElem?_distance henabled happlies
    exact ⟨q, List.mem_of_getElem? hq, mem_select.mpr ⟨hmem, hsel⟩⟩

theorem prevails_of_first (h : FirstWith (Writes (keyOf row)) (chain t deviceId groupIds tenantId) row) :
    Prevails t deviceId groupIds tenantId row := by
  refine ⟨mem_chain.mp h.mem, fun other hother hkey => ?_⟩
  have hwrites : Writes (keyOf row) other := ⟨hother.2.1, keyOf_eq_iff.mpr hkey⟩
  obtain ⟨q, ⟨pre, post, hqueries, -, hpre⟩, hfirst⟩ := FirstWith.flatMap_iff.mp h
  have hindex : (queries deviceId groupIds tenantId)[pre.length]? = some q := by
    rw [hqueries, List.getElem?_append_right (Nat.le_refl _), Nat.sub_self]
    rfl
  obtain ⟨hmem, hsel⟩ := mem_select.mp hfirst.mem
  obtain ⟨-, -, hle⟩ := of_query hindex hsel
  obtain ⟨q', hq', hsel'⟩ := getElem?_distance hother.2.1 hother.2.2
  have hother' := mem_select.mpr ⟨hother.1, hsel'⟩
  -- the queries before this one have no row of the key
  have hge : pre.length ≤ distance groupIds other := by
    by_contra hlt
    rw [hqueries, List.getElem?_append_left (not_le.mp hlt)] at hq'
    exact hpre q' (List.mem_of_getElem? hq') ⟨other, hother', hwrites⟩
  rcases (hle.trans hge).lt_or_eq with hlt | heq
  · exact .inl hlt
  · refine .inr ⟨heq, ?_⟩
    have hsame : distance groupIds other = pre.length := le_antisymm (heq ▸ hle) hge
    rw [hsame, hindex] at hq'
    rw [← Option.some.inj hq'] at hother'
    obtain ⟨before, behind, hsplit, -, hbefore⟩ := hfirst
    rw [hsplit] at hother'
    rcases List.mem_append.mp hother' with hmem' | hmem'
    · exact absurd hwrites (hbefore other hmem')
    · rcases List.mem_cons.mp hmem' with rfl | hmem'
      · exact le_rfl
      · have hsorted := pairwise_select (t := t) q
        rw [hsplit] at hsorted
        exact (List.pairwise_cons.mp (List.pairwise_append.mp hsorted).2.1).1 other hmem'

theorem prevails_unique {other : RateLimitPolicyRow} (h : Prevails t deviceId groupIds tenantId row)
    (h' : Prevails t deviceId groupIds tenantId other) (hkey : (other.type, other.port) = (row.type, row.port)) :
    other = row := by
  have hle : row.createdAt = other.createdAt := by
    rcases h.2 other h'.1 hkey with hlt | ⟨heq, hle⟩
    · rcases h'.2 row h.1 hkey.symm with hlt' | ⟨heq', -⟩
      · omega
      · omega
    · rcases h'.2 row h.1 hkey.symm with hlt' | ⟨-, hle'⟩
      · omega
      · exact le_antisymm hle hle'
  exact List.inj_on_of_nodup_map t.created h'.1.1 h.1.1 hle.symm

theorem first_iff_prevails : FirstWith (Writes (keyOf row)) (chain t deviceId groupIds tenantId) row ↔
    Prevails t deviceId groupIds tenantId row := by
  refine ⟨prevails_of_first, fun h => ?_⟩
  have hexists : ∃ first, FirstWith (Writes (keyOf row)) (chain t deviceId groupIds tenantId) first :=
    FirstWith.exists_iff.mpr ⟨row, mem_chain.mpr h.1, h.1.2.1, rfl⟩
  obtain ⟨first, hfirst⟩ := hexists
  have hkey := hfirst.prop.2
  have hprevails : Prevails t deviceId groupIds tenantId first := by
    rw [← hkey] at hfirst
    exact prevails_of_first hfirst
  rw [prevails_unique h hprevails (keyOf_eq_iff.mp hkey)] at hfirst
  exact hfirst

end queries

/-! ## The rules of a device -/

section rules
variable {t t' : PolicyTable} {deviceId tenantId : Nat} {groupIds : List Nat} {rule : RateLimitRule}

theorem mem_collected {key : List Char} : (key, rule) ∈ collect [] (chain t deviceId groupIds tenantId) ↔
    ∃ row, Prevails t deviceId groupIds tenantId row ∧ keyOf row = key ∧ ruleOf row = rule := by
  rw [mem_collect]
  simp only [List.not_mem_nil, false_or, List.map_nil, not_false_iff, true_and]
  constructor
  · rintro ⟨row, hfirst, hrule⟩
    obtain rfl := hfirst.prop.2
    exact ⟨row, first_iff_prevails.mp hfirst, rfl, hrule⟩
  · rintro ⟨row, hprevails, rfl, hrule⟩
    exact ⟨row, first_iff_prevails.mpr hprevails, hrule⟩

theorem mem_resolveForAgent (ignoreEnforcement : Bool) :
    rule ∈ resolveForAgent true ignoreEnforcement t deviceId groupIds tenantId ↔
      ∃ row, Prevails t deviceId groupIds tenantId row ∧ ruleOf row = rule := by
  rw [resolveForAgent_on, ← chain, List.mem_map]
  constructor
  · rintro ⟨⟨key, r⟩, hmem, rfl⟩
    obtain ⟨row, hprevails, -, hrule⟩ := mem_collected.mp hmem
    exact ⟨row, hprevails, hrule⟩
  · rintro ⟨row, hprevails, rfl⟩
    exact ⟨(keyOf row, ruleOf row), mem_collected.mpr ⟨row, hprevails, rfl, rfl⟩, rfl⟩

theorem nodup_resolveForAgent (ignoreEnforcement : Bool) :
    ((resolveForAgent true ignoreEnforcement t deviceId groupIds tenantId).map fun r => (r.type, r.port)).Nodup := by
  have hkeys : ((collect [] (chain t deviceId groupIds tenantId)).map (·.1)).Nodup := by
    apply nodup_collect
    exact List.nodup_nil
  rw [resolveForAgent_on, ← chain, List.map_map]
  refine List.Nodup.map_on ?_ (List.Nodup.of_map _ hkeys)
  rintro ⟨key, r⟩ hr ⟨key', r'⟩ hr' heq
  obtain ⟨row, hprevails, rfl, rfl⟩ := mem_collected.mp hr
  obtain ⟨row', hprevails', rfl, rfl⟩ := mem_collected.mp hr'
  rw [prevails_unique hprevails hprevails' heq.symm]

theorem exists_prevails {row : RateLimitPolicyRow} (h : Eligible t deviceId groupIds tenantId row) :
    ∃ first, Prevails t deviceId groupIds tenantId first ∧ (first.type, first.port) = (row.type, row.port) := by
  have hexists : ∃ first, FirstWith (Writes (keyOf row)) (chain t deviceId groupIds tenantId) first :=
    FirstWith.exists_iff.mpr ⟨row, mem_chain.mpr h, h.2.1, rfl⟩
  obtain ⟨first, hfirst⟩ := hexists
  have hkey := hfirst.prop.2
  rw [← hkey] at hfirst
  exact ⟨first, first_iff_prevails.mp hfirst, keyOf_eq_iff.mp hkey⟩

theorem resolveForAgent_congr (ignoreEnforcement : Bool)
    (h : ∀ row, Eligible t deviceId groupIds tenantId row ↔ Eligible t' deviceId groupIds tenantId row) :
    resolveForAgent true ignoreEnforcement t deviceId groupIds tenantId =
      resolveForAgent true ignoreEnforcement t' deviceId groupIds tenantId := by
  rw [resolveForAgent_on, resolveForAgent_on]
  have hchain : (queries deviceId groupIds tenantId).flatMap (fun q => select q t) =
      (queries deviceId groupIds tenantId).flatMap fun q => select q t' := by
    refine List.flatMap_congr fun q hq => select_congr fun row hrow => ?_
    obtain ⟨i, hi⟩ := List.mem_iff_getElem?.mp hq
    obtain ⟨henabled, happlies, -⟩ := of_query hi hrow
    have hrow := h row
    simp only [Eligible, henabled, happlies, and_true] at hrow
    exact hrow
  rw [hchain]

end rules

theorem resolveForAgent_eq (enforcement : Bool) (t : PolicyTable) (deviceId : Nat) (groupIds : List Nat)
    (tenantId : Nat) : resolveForAgent enforcement false t deviceId groupIds tenantId =
      Server.resolveForAgent enforcement (resolveForAgent true false t deviceId groupIds tenantId) := by
  cases enforcement with
  | false => rfl
  | true => rfl

/-- With the switch on, the rules are those of the policies that prevail, one for each type and port of an eligible
policy; none is of a policy of another tenant; and tables with the same eligible policies have the same rules. -/
theorem resolveForAgent_spec (ignoreEnforcement : Bool) (t : PolicyTable) (deviceId : Nat) (groupIds : List Nat)
    (tenantId : Nat) :
    ((resolveForAgent true ignoreEnforcement t deviceId groupIds tenantId).map fun r => (r.type, r.port)).Nodup ∧
    (∀ key, (∃ rule ∈ resolveForAgent true ignoreEnforcement t deviceId groupIds tenantId,
        (rule.type, rule.port) = key) ↔
      ∃ row, Eligible t deviceId groupIds tenantId row ∧ (row.type, row.port) = key) ∧
    (∀ rule, rule ∈ resolveForAgent true ignoreEnforcement t deviceId groupIds tenantId ↔
      ∃ row, Prevails t deviceId groupIds tenantId row ∧ ruleOf row = rule) ∧
    (∀ rule ∈ resolveForAgent true ignoreEnforcement t deviceId groupIds tenantId, ∃ row ∈ t.rows,
      ruleOf row = rule ∧ (row.scope = .global ∨ row.tenantId = some tenantId)) ∧
    ∀ t' : PolicyTable,
      (∀ row, Eligible t deviceId groupIds tenantId row ↔ Eligible t' deviceId groupIds tenantId row) →
      resolveForAgent true ignoreEnforcement t' deviceId groupIds tenantId =
        resolveForAgent true ignoreEnforcement t deviceId groupIds tenantId := by
  refine ⟨nodup_resolveForAgent _, fun key => ⟨?_, ?_⟩, fun rule => mem_resolveForAgent _, fun rule hrule => ?_,
    fun t' h => (resolveForAgent_congr _ h).symm⟩
  · rintro ⟨rule, hrule, rfl⟩
    obtain ⟨row, hprevails, rfl⟩ := (mem_resolveForAgent _).mp hrule
    exact ⟨row, hprevails.1, rfl⟩
  · rintro ⟨row, heligible, rfl⟩
    obtain ⟨first, hprevails, hkey⟩ := exists_prevails heligible
    exact ⟨ruleOf first, (mem_resolveForAgent _).mpr ⟨first, hprevails, rfl⟩, hkey⟩
  · obtain ⟨row, hprevails, rfl⟩ := (mem_resolveForAgent _).mp hrule
    refine ⟨row, hprevails.1.1, rfl, ?_⟩
    have happlies := hprevails.1.2.2
    unfold Applies at happlies
    cases hscope : row.scope with
    | global => exact .inl rfl
    | tenant =>
      rw [hscope] at happlies
      exact .inr happlies
    | group =>
      rw [hscope] at happlies
      exact .inr happlies.2
    | agent =>
      rw [hscope] at happlies
      exact .inr happlies.2

/-- A policy of tenant 1 for its device 7, a global one and one that tenant 2 wrote for the device. -/
def devicePolicy : RateLimitPolicyRow :=
  ⟨1, .connection, .agent, some 7, some 1, true, some 22, 10, none, .drop, none, 100⟩

def globalPolicy : RateLimitPolicyRow := ⟨2, .connection, .global, none, none, true, some 22, 50, none, .drop, none, 50⟩

def foreignPolicy : RateLimitPolicyRow :=
  ⟨3, .connection, .agent, some 7, some 2, true, some 22, 1, none, .reject, none, 10⟩

def ownPolicies : PolicyTable := ⟨[globalPolicy, devicePolicy], by decide⟩

def plantedPolicies : PolicyTable := ⟨[foreignPolicy, globalPolicy, devicePolicy], by decide⟩

theorem resolveForAgent_spec_planted :
    resolveForAgent true false plantedPolicies 7 [3] 1 = resolveForAgent true false ownPolicies 7 [3] 1 ∧
      ruleOf devicePolicy ∈ resolveForAgent true false ownPolicies 7 [3] 1 := by
  obtain ⟨-, -, -, -, hsame⟩ := resolveForAgent_spec false ownPolicies 7 [3] 1
  refine ⟨hsame plantedPolicies fun row => ⟨fun h => ⟨List.mem_cons_of_mem _ h.1, h.2⟩, fun h => ⟨?_, h.2⟩⟩,
    by decide⟩
  rcases List.mem_cons.mp h.1 with rfl | hmem
  · have hforeign : foreignPolicy.scopeId = some 7 ∧ foreignPolicy.tenantId = some 1 := h.2.2
    exact absurd hforeign.2 (by decide)
  · exact hmem

end Obliguard.Server.RateLimitPolicies

import Obliguard.Lib.AsyncCache
import Obliguard.Lib.Runs

/-!
# Revoked tenant access

`canUseTenant` of `middleware/tenant.ts` beside the removal of memberships. Its answers are cached for
5 s; `invalidateTenantAccess` drops those of the user after the rows are deleted, but a call that read
its row before still stores what it read, and later calls are served it. `access_revoked` is about the
runs in which no such call is under way at the invalidation; `access_not_revoked` is a run in which one
is.
-/

namespace Obliguard.Server

open Runs

/-! ## The machine -/

def tenantAccessTtlMs : Int := 5000

/-- `MAX_ENTRIES`. -/
def tenantAccessMaxEntries : Nat := 10000

/-- `Number.MAX_SAFE_INTEGER`. -/
def maxSafeInteger : Int := 9007199254740991

/-- The tenant of a session, `none` for a value that is not an integer. -/
def usableTenantId (tenantId : Option Int) : Option Nat :=
  tenantId.bind fun t => if 0 < t ∧ t ≤ maxSafeInteger then some t.toNat else none

/-- A cached answer of some age. -/
def freshAccess (_ : Bool) (age : Int) : Bool := decide (age < tenantAccessTtlMs)

/-- A membership: a user and a tenant. -/
abbrev Membership := Nat × Nat

/-- An answer of `canUseTenant`. -/
structure AccessAnswer where
  call : Nat
  ok : Bool
  /-- The user is not a platform admin, and the call started after the invalidation that follows the
  removal of the membership had returned, with the membership not granted again since. -/
  revoked : Bool
deriving DecidableEq

structure AccessState where
  clock : Int
  /-- `user_tenants`. -/
  members : List Membership
  tenants : List Nat
  accessCache : AsyncCache Membership Bool
  existsCache : AsyncCache Nat Bool
  /-- Removals of memberships of a user, before their invalidation. -/
  removals : Registry Nat
  /-- For each of them, the memberships it deleted that have not been granted again. -/
  holds : Nat → List Membership
  /-- The memberships removed and invalidated, and not granted again. -/
  revoked : List Membership
  /-- For each call, those revoked when it started and still. -/
  marks : Nat → List Membership
  answers : List AccessAnswer

/-- A server that just started. -/
def AccessState.init (members : List Membership) (tenants : List Nat) : AccessState :=
  ⟨0, members, tenants, .empty, .empty, .empty, fun _ => [], [], fun _ => [], []⟩

inductive AccessAction
  | tick (clock : Int)
  | grant (userId tenantId : Nat)
  /-- The rows of some tenants are deleted. -/
  | remove (p userId : Nat) (tenantIds : List Nat)
  /-- And `invalidateTenantAccess` follows. -/
  | invalidateRemoved (p : Nat)
  /-- `invalidateTenantAccess` for another reason. -/
  | invalidateUser (userId : Nat)
  /-- A tenant is created or deleted. -/
  | setTenants (tenants : List Nat)
  | invalidateTenant (tenantId : Nat)
  /-- `canUseTenant` is called. -/
  | call (n userId : Nat) (admin : Bool) (tenantId : Option Int)
  /-- `userHasAccess` reads the membership. -/
  | readAccess (n : Nat)
  | finishAccess (n : Nat)
  /-- `exists` reads the tenant. -/
  | readExists (n : Nat)
  | finishExists (n : Nat)
  /-- A database error ends a call. -/
  | fail (n : Nat)

/-- `canUseTenant` up to its read: a cached answer, or a load. -/
def canUseTenant (s : AccessState) (n userId : Nat) (admin : Bool) (tenantId : Option Int) :
    AccessState :=
  let s := { s with marks := fun m => if m = n then s.revoked else s.marks m }
  match usableTenantId tenantId with
  | none => { s with answers := s.answers ++ [⟨n, false, false⟩] }
  | some t =>
    if admin then
      match s.existsCache.lookup freshAccess t s.clock with
      | some ok => { s with answers := s.answers ++ [⟨n, ok, false⟩] }
      | none => { s with existsCache := s.existsCache.start n t }
    else
      match s.accessCache.lookup freshAccess (userId, t) s.clock with
      | some ok => { s with
          answers := s.answers ++ [⟨n, ok, decide ((userId, t) ∈ s.revoked)⟩] }
      | none => { s with accessCache := s.accessCache.start n (userId, t) }

/-- One step. -/
def accessStep (s : AccessState) : AccessAction → Option AccessState
  | .tick clock => some { s with clock := clock }
  | .grant userId tenantId => some { s with
      members := (userId, tenantId) :: s.members
      holds := fun p => (s.holds p).filter (· ≠ (userId, tenantId))
      revoked := s.revoked.filter (· ≠ (userId, tenantId))
      marks := fun n => (s.marks n).filter (· ≠ (userId, tenantId)) }
  | .remove p userId tenantIds =>
    if (s.removals.get p).isNone then some { s with
      members := s.members.filter fun m => !(m.1 == userId && tenantIds.contains m.2)
      removals := s.removals.put p userId
      holds := fun q => if q = p then tenantIds.map (userId, ·) else s.holds q }
    else none
  | .invalidateRemoved p =>
    (s.removals.get p).map fun userId => { s with
      accessCache := s.accessCache.drop (·.1 == userId)
      removals := s.removals.erase p
      holds := fun q => if q = p then [] else s.holds q
      revoked := s.holds p ++ s.revoked }
  | .invalidateUser userId => some { s with accessCache := s.accessCache.drop (·.1 == userId) }
  | .setTenants tenants => some { s with tenants := tenants }
  | .invalidateTenant tenantId => some { s with
      existsCache := s.existsCache.drop (· == tenantId)
      accessCache := s.accessCache.drop (·.2 == tenantId) }
  | .call n userId admin tenantId =>
    if (s.accessCache.loads.get n).isNone ∧ (s.existsCache.loads.get n).isNone then
      some (canUseTenant s n userId admin tenantId)
    else none
  | .readAccess n =>
    (s.accessCache.fetch n fun m => s.members.contains m).map fun c => { s with accessCache := c }
  | .finishAccess n =>
    (s.accessCache.finish (some tenantAccessMaxEntries) n s.clock).map fun r => { s with
      accessCache := r.2
      answers := s.answers ++ [⟨n, r.1.2, decide (r.1.1 ∈ s.marks n)⟩] }
  | .readExists n =>
    (s.existsCache.fetch n fun t => s.tenants.contains t).map fun c => { s with existsCache := c }
  | .finishExists n =>
    (s.existsCache.finish (some tenantAccessMaxEntries) n s.clock).map fun r => { s with
      existsCache := r.2
      answers := s.answers ++ [⟨n, r.1.2, false⟩] }
  | .fail n => some { s with
      accessCache := s.accessCache.abandon n, existsCache := s.existsCache.abandon n }

/-! ## The invariant -/

/-- An answer about the membership is negative. -/
def Denied (m : Membership) (k : Membership) (ok : Bool) : Prop := k = m → ok = false

/-- The membership does not exist, nor does the cache, or a call that has read, say so. -/
def Revoked (s : AccessState) (m : Membership) : Prop :=
  m ∉ s.members ∧ s.accessCache.Sound (Denied m)

/-- Whether a call under way has read one of the memberships that a removal has deleted. -/
def readRemoved (s : AccessState) (p : Nat) : Bool :=
  s.accessCache.loads.any fun load => match load with
    | .read k ok => ok && (s.holds p).contains k
    | _ => false

/-- The condition: at the invalidation after a removal, no call under way has read a membership that
was deleted. -/
def noStaleGrant (s : AccessState) : AccessAction → Bool
  | .invalidateRemoved p => !readRemoved s p
  | _ => true

structure AccessInv (s : AccessState) : Prop where
  revoked : ∀ m ∈ s.revoked, Revoked s m
  removed : ∀ p, ∀ m ∈ s.holds p, m ∉ s.members ∧ s.removals.get p = some m.1
  marks : ∀ n, ∀ m ∈ s.marks n, m ∈ s.revoked
  answers : ∀ a ∈ s.answers, a.revoked = true → a.ok = false

section invariant
variable {s s' : AccessState} {m : Membership} {n p : Nat}

theorem AccessInv.of_cache (h : AccessInv s) {c : AsyncCache Membership Bool}
    (hc : ∀ m, Revoked s m → c.Sound (Denied m)) : AccessInv { s with accessCache := c } :=
  { h with revoked := fun m hm => ⟨(h.revoked m hm).1, hc m (h.revoked m hm)⟩ }

theorem AccessInv.answer (h : AccessInv s) {a : AccessAnswer}
    (ha : a.revoked = true → a.ok = false) :
    AccessInv { s with answers := s.answers ++ [a] } := by
  refine { h with answers := ?_ }
  intro b hb
  rcases List.mem_append.mp hb with hb | hb
  · exact h.answers b hb
  · rw [List.mem_singleton.mp hb]
    exact ha

theorem sound_drop_access {c : AsyncCache Membership Bool} {q : Membership → Bool}
    (h : c.Sound (Denied m)) : (c.drop q).Sound (Denied m) :=
  AsyncCache.sound_drop (fun k v storedAt _ hk => h.entries k v storedAt hk) h.reads

theorem revoked_of_removed (hm : m ∈ s.holds p) (hread : readRemoved s p = false) :
    (s.accessCache.drop (·.1 == m.1)).Sound (Denied m) := by
  refine AsyncCache.sound_drop ?_ ?_
  · rintro k v storedAt hk - rfl
    simp at hk
  · rintro n k ok hload rfl
    by_contra hok
    refine absurd hread ?_
    rw [readRemoved, Bool.not_eq_false, Registry.any_eq_true]
    exact ⟨n, _, hload, by simpa [hm] using hok⟩

theorem accessInv_call (h : AccessInv s) (n userId : Nat) (admin : Bool) (tenantId : Option Int) :
    AccessInv (canUseTenant s n userId admin tenantId) := by
  have hmarks : AccessInv { s with marks := fun m => if m = n then s.revoked else s.marks m } := by
    refine { h with marks := ?_ }
    intro k m hm
    dsimp only at hm
    split at hm
    · exact hm
    · exact h.marks k m hm
  unfold canUseTenant
  dsimp only
  split
  · exact hmarks.answer (by simp)
  · split
    · split
      · exact hmarks.answer (by simp)
      · exact { hmarks with }
    · split
      · rename_i t _ ok hlookup
        refine hmarks.answer ?_
        intro hrevoked
        exact (h.revoked _ (of_decide_eq_true hrevoked)).2.lookup hlookup rfl
      · exact hmarks.of_cache fun m hm => hm.2.start

theorem accessInv_step {a : AccessAction} (h : AccessInv s) (hok : noStaleGrant s a = true)
    (hs : accessStep s a = some s') : AccessInv s' := by
  cases a with
  | tick clock =>
    cases hs
    exact { h with }
  | grant userId tenantId =>
    cases hs
    refine { h with revoked := ?_, removed := ?_, marks := ?_ }
    · intro m hm
      obtain ⟨hmem, hne⟩ := List.mem_filter.mp hm
      obtain ⟨hout, hsound⟩ := h.revoked m hmem
      exact ⟨List.not_mem_cons_of_ne_of_not_mem (of_decide_eq_true hne) hout, hsound⟩
    · intro p m hm
      obtain ⟨hmem, hne⟩ := List.mem_filter.mp hm
      obtain ⟨hout, hp⟩ := h.removed p m hmem
      exact ⟨List.not_mem_cons_of_ne_of_not_mem (of_decide_eq_true hne) hout, hp⟩
    · intro n m hm
      obtain ⟨hmem, hne⟩ := List.mem_filter.mp hm
      exact List.mem_filter.mpr ⟨h.marks n m hmem, hne⟩
  | remove p userId tenantIds =>
    simp only [accessStep] at hs
    split at hs
    · cases hs
      have hout : ∀ m, m ∉ s.members →
          m ∉ s.members.filter fun m => !(m.1 == userId && tenantIds.contains m.2) :=
        fun m hm hmem => hm (List.mem_filter.mp hmem).1
      refine { h with revoked := ?_, removed := ?_ }
      · intro m hm
        exact ⟨hout m (h.revoked m hm).1, (h.revoked m hm).2⟩
      · intro q m hm
        dsimp only at hm ⊢
        by_cases hq : q = p
        · rw [if_pos hq] at hm
          obtain ⟨t, ht, rfl⟩ := List.mem_map.mp hm
          refine ⟨?_, hq ▸ Registry.get_put_self⟩
          intro hmem
          have hkept := (List.mem_filter.mp hmem).2
          simp [ht] at hkept
        · rw [if_neg hq] at hm
          obtain ⟨hmem, hp⟩ := h.removed q m hm
          exact ⟨hout m hmem, (Registry.get_put_of_ne hq).trans hp⟩
    · contradiction
  | invalidateRemoved p =>
    obtain ⟨userId, hp, rfl⟩ := Option.map_eq_some_iff.mp hs
    refine { h with revoked := ?_, removed := ?_, marks := ?_ }
    · intro m hm
      rcases List.mem_append.mp hm with hm | hm
      · obtain ⟨hout, hm'⟩ := h.removed p m hm
        rw [hp, Option.some.injEq] at hm'
        simp only [noStaleGrant, Bool.not_eq_true'] at hok
        exact ⟨hout, hm' ▸ revoked_of_removed hm hok⟩
      · exact ⟨(h.revoked m hm).1, sound_drop_access (h.revoked m hm).2⟩
    · intro q m hm
      dsimp only at hm
      split at hm
      · contradiction
      · rename_i hq
        exact ⟨(h.removed q m hm).1, (Registry.get_erase_of_ne hq).trans (h.removed q m hm).2⟩
    · exact fun n m hm => List.mem_append_right _ (h.marks n m hm)
  | invalidateUser userId =>
    cases hs
    exact h.of_cache fun m hm => sound_drop_access hm.2
  | setTenants tenants =>
    cases hs
    exact { h with }
  | invalidateTenant tenantId =>
    cases hs
    have hcache := h.of_cache (c := s.accessCache.drop (·.2 == tenantId)) fun m hm =>
      sound_drop_access hm.2
    exact { hcache with }
  | call n userId admin tenantId =>
    simp only [accessStep] at hs
    split at hs
    · cases hs
      exact accessInv_call h n userId admin tenantId
    · contradiction
  | readAccess n =>
    obtain ⟨c, hc, rfl⟩ := Option.map_eq_some_iff.mp hs
    refine h.of_cache fun m hm => hm.2.fetch ?_ hc
    rintro k rfl
    simpa using hm.1
  | finishAccess n =>
    obtain ⟨⟨⟨k, ok⟩, c⟩, hc, rfl⟩ := Option.map_eq_some_iff.mp hs
    have hcache := h.of_cache fun m hm => (hm.2.finish hc).2
    refine hcache.answer ?_
    intro hmark
    have hrevoked := h.revoked k (h.marks n k (of_decide_eq_true hmark))
    exact (hrevoked.2.finish hc).1 rfl
  | readExists n =>
    obtain ⟨c, -, rfl⟩ := Option.map_eq_some_iff.mp hs
    exact { h with }
  | finishExists n =>
    obtain ⟨r, -, rfl⟩ := Option.map_eq_some_iff.mp hs
    have hcache : AccessInv { s with existsCache := r.2 } := { h with }
    exact hcache.answer (by simp)
  | fail n =>
    cases hs
    have hcache := h.of_cache (c := s.accessCache.abandon n) fun m hm => hm.2.abandon
    exact { hcache with }

end invariant

/-- In every run under the condition, `canUseTenant` never answers true for a membership that was
revoked when the call started. -/
theorem access_revoked (members : List Membership) (tenants : List Nat) (as : List AccessAction)
    (s : AccessState)
    (hok : StepsMeet accessStep (fun s a => noStaleGrant s a) (.init members tenants) as)
    (h : run accessStep (.init members tenants) as = some s) :
    ∀ a ∈ s.answers, a.revoked = true → a.ok = false := by
  have h0 : AccessInv (.init members tenants) := by
    constructor <;> simp [AccessState.init]
  exact (run_invariant (fun _ _ _ hs hok hstep => accessInv_step hs hok hstep) h0 hok h).answers

/-- A call is answered from the database, the membership is removed, and the next one is denied. -/
def removedInTime : List AccessAction :=
  [.call 0 4 false (some 2), .readAccess 0, .finishAccess 0, .remove 0 4 [2], .invalidateRemoved 0,
    .call 1 4 false (some 2), .readAccess 1, .finishAccess 1]

theorem access_revoked_inTime :
    (run accessStep (.init [(4, 2)] [1, 2]) removedInTime).map (·.answers) =
      some [⟨0, true, false⟩, ⟨1, false, true⟩] ∧
    ∃ s, run accessStep (.init [(4, 2)] [1, 2]) removedInTime = some s ∧
      ∀ a ∈ s.answers, a.revoked = true → a.ok = false := by
  have hanswers : (run accessStep (.init [(4, 2)] [1, 2]) removedInTime).map (·.answers) =
      some [⟨0, true, false⟩, ⟨1, false, true⟩] := by decide +kernel
  refine ⟨hanswers, ?_⟩
  obtain ⟨s, hs, -⟩ := Option.map_eq_some_iff.mp hanswers
  exact ⟨s, hs, access_revoked [(4, 2)] [1, 2] removedInTime s (by decide +kernel) hs⟩

/-- A call reads the membership before it is removed, and stores its answer after the
invalidation. -/
def staleGrant : List AccessAction :=
  [.call 0 4 false (some 2), .readAccess 0, .remove 0 4 [2], .invalidateRemoved 0, .finishAccess 0,
    .call 1 4 false (some 2)]

/-- The call that starts then is answered from the cache, with true. -/
theorem access_not_revoked : ¬ ∀ (members : List Membership) (tenants : List Nat)
    (as : List AccessAction) (s : AccessState), run accessStep (.init members tenants) as = some s →
      ∀ a ∈ s.answers, a.revoked = true → a.ok = false := by
  intro h
  have hanswers : (run accessStep (.init [(4, 2)] [1, 2]) staleGrant).map (·.answers) =
      some [⟨0, true, false⟩, ⟨1, true, true⟩] := by decide +kernel
  obtain ⟨s, hs, hanswers⟩ := Option.map_eq_some_iff.mp hanswers
  have hdenied := h [(4, 2)] [1, 2] staleGrant s hs ⟨1, true, true⟩ (by rw [hanswers]; simp) rfl
  contradiction

end Obliguard.Server

import Mathlib.Data.List.AList
import Obliguard.Lib.Keyed

/-!
# A cache over asynchronous loads

A load is started for a key, reads its source at some later moment, and stores what it read when it
finishes, whatever became of the cache in between. `Sound` says that every entry, and everything that
a load has read and not stored yet, is as a predicate wants it: a property of what is served from
then on (`Sound.lookup`). Dropping entries establishes it only together with the loads that have read
(`sound_drop`).
-/

namespace Obliguard

/-- A load that has not finished. -/
inductive CacheLoad (κ ν : Type)
  | started (key : κ)
  | read (key : κ) (value : ν)
deriving DecidableEq

/-- The entries, each with the time it was stored at, and the loads under way. -/
structure AsyncCache (κ ν : Type) where
  entries : AList fun _ : κ => ν × Int
  loads : Registry (CacheLoad κ ν)

namespace AsyncCache

variable {κ ν : Type}

def empty : AsyncCache κ ν := ⟨∅, .empty⟩

/-- A load starts. -/
def start (c : AsyncCache κ ν) (t : Nat) (k : κ) : AsyncCache κ ν :=
  { c with loads := c.loads.put t (.started k) }

/-- The source is read. -/
def fetch (c : AsyncCache κ ν) (t : Nat) (source : κ → ν) : Option (AsyncCache κ ν) :=
  match c.loads.get t with
  | some (.started k) => some { c with loads := c.loads.put t (.read k (source k)) }
  | _ => none

/-- A load ends without a result. -/
def abandon (c : AsyncCache κ ν) (t : Nat) : AsyncCache κ ν := { c with loads := c.loads.erase t }

variable [DecidableEq κ]

/-- The value of a key, if its entry is fresh enough. -/
def lookup (c : AsyncCache κ ν) (fresh : ν → Int → Bool) (k : κ) (now : Int) : Option ν :=
  match c.entries.lookup k with
  | some (v, storedAt) => if fresh v (now - storedAt) then some v else none
  | none => none

/-- A load finishes and stores what it read; a full map is cleared first. -/
def finish (c : AsyncCache κ ν) (bound : Option Nat) (t : Nat) (now : Int) :
    Option ((κ × ν) × AsyncCache κ ν) :=
  match c.loads.get t with
  | some (.read k v) =>
    let entries := if bound.any (· ≤ c.entries.keys.length) then ∅ else c.entries
    some ((k, v), ⟨entries.insert k (v, now), c.loads.erase t⟩)
  | _ => none

/-- The entries of some keys are dropped. -/
def drop (c : AsyncCache κ ν) (p : κ → Bool) : AsyncCache κ ν :=
  { c with entries := (c.entries.keys.filter p).foldl (fun entries k => entries.erase k) c.entries }

theorem lookup_foldl_erase {β : κ → Type} (ks : List κ) (entries : AList β) (k : κ) :
    (ks.foldl (fun entries k => entries.erase k) entries).lookup k =
      if k ∈ ks then none else entries.lookup k := by
  induction ks generalizing entries with
  | nil => simp
  | cons k' ks ih =>
    rw [List.foldl_cons, ih]
    by_cases hks : k ∈ ks
    · simp [hks]
    · by_cases hk : k = k'
      · subst hk
        simp [hks, AList.lookup_erase]
      · simp [hks, hk, AList.lookup_erase_ne hk]

theorem lookup_drop (c : AsyncCache κ ν) (p : κ → Bool) (k : κ) :
    (c.drop p).entries.lookup k = if p k then none else c.entries.lookup k := by
  rw [drop, lookup_foldl_erase]
  by_cases hp : p k = true
  · by_cases hk : k ∈ c.entries.keys
    · simp [hp, hk]
    · rw [if_pos hp, AList.lookup_eq_none.mpr hk, ite_self]
  · simp [hp]

/-- Every entry, and everything read and not stored yet, is good. -/
structure Sound (Good : κ → ν → Prop) (c : AsyncCache κ ν) : Prop where
  entries : ∀ k v storedAt, c.entries.lookup k = some (v, storedAt) → Good k v
  reads : ∀ t k v, c.loads.get t = some (.read k v) → Good k v

section sound
variable {Good : κ → ν → Prop} {c c' : AsyncCache κ ν} {t : Nat} {k : κ}

theorem Sound.lookup (h : Sound Good c) {fresh : ν → Int → Bool} {now : Int} {v : ν}
    (hv : c.lookup fresh k now = some v) : Good k v := by
  unfold AsyncCache.lookup at hv
  split at hv
  · rename_i v' storedAt hentry
    split at hv
    · rw [← Option.some.inj hv]
      exact h.entries k v' storedAt hentry
    · contradiction
  · contradiction

theorem Sound.start (h : Sound Good c) : Sound Good (c.start t k) where
  entries := h.entries
  reads := by
    intro u k' v hu
    rcases Registry.get_put_eq_some hu with ⟨-, hload⟩ | ⟨-, hu⟩
    · contradiction
    · exact h.reads u k' v hu

theorem Sound.fetch (h : Sound Good c) {source : κ → ν} (hsource : ∀ k, Good k (source k))
    (hc : c.fetch t source = some c') : Sound Good c' := by
  unfold AsyncCache.fetch at hc
  split at hc
  · cases hc
    refine { h with reads := ?_ }
    intro u k' v hu
    rcases Registry.get_put_eq_some hu with ⟨-, hload⟩ | ⟨-, hu⟩
    · cases hload
      exact hsource _
    · exact h.reads u k' v hu
  · contradiction

theorem Sound.abandon (h : Sound Good c) : Sound Good (c.abandon t) where
  entries := h.entries
  reads := fun u k' v hu => h.reads u k' v (Registry.get_erase_eq_some hu).2

theorem Sound.finish (h : Sound Good c) {bound : Option Nat} {now : Int} {v : ν}
    (hc : c.finish bound t now = some ((k, v), c')) : Good k v ∧ Sound Good c' := by
  unfold AsyncCache.finish at hc
  split at hc
  · rename_i hload
    cases hc
    have hgood := h.reads t k v hload
    refine ⟨hgood, ?_, fun u k' v' hu => h.reads u k' v' (Registry.get_erase_eq_some hu).2⟩
    intro k' w storedAt hentry
    by_cases hk : k' = k
    · subst hk
      rw [AList.lookup_insert, Option.some.injEq, Prod.mk.injEq] at hentry
      rw [← hentry.1]
      exact hgood
    · rw [AList.lookup_insert_ne hk] at hentry
      split at hentry
      · simp at hentry
      · exact h.entries k' w storedAt hentry
  · contradiction

/-- Dropping the entries that may be bad is enough when no load has read a bad value. -/
theorem sound_drop {p : κ → Bool}
    (hentries : ∀ k v storedAt, p k = false → c.entries.lookup k = some (v, storedAt) → Good k v)
    (hreads : ∀ t k v, c.loads.get t = some (.read k v) → Good k v) : Sound Good (c.drop p) where
  entries := by
    intro k v storedAt hentry
    rw [lookup_drop] at hentry
    split at hentry
    · contradiction
    · rename_i hp
      exact hentries k v storedAt (by simpa using hp) hentry
  reads := hreads

end sound

end AsyncCache

end Obliguard

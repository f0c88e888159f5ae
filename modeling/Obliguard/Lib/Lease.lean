import Mathlib.Data.List.Perm.Basic
import Mathlib.Order.Lattice
import Mathlib.Tactic.Common

/-!
# A lease that several parties prolong

Something is held until a term: for good, or by a lease that any party may prolong and that only its
holder may end. The ledger has what the parties asked for and did not give up since. A run covers its
ledger as long as the holder gives up last, and nobody asks for more than a fixed term (`LeaseMeets`):
`covered_step` is the step of this, and `alike_asks` with `alike_step` say that requests made one after
the other may be made in any order.
-/

namespace Obliguard

variable {α ε : Type}

/-- How something is held. -/
inductive Hold (α ε : Type)
  | fixed (term : ε)
  /-- A lease; without a holder, it goes to the next party that asks. -/
  | leased (holder : Option α) (term : ε)

def Hold.term : Hold α ε → ε
  | .fixed term => term
  | .leased _ term => term

inductive LeaseCall (α ε : Type)
  | ask (a : α) (term : ε)
  | giveUp (a : α)

/-- A hold, and the requests that stand. -/
structure Lease (α ε : Type) where
  hold : Option (Hold α ε)
  ledger : List (α × ε)

namespace Lease

/-- Until when it is held. -/
def until? (s : Lease α ε) : Option ε := s.hold.map Hold.term

variable {s s' s'' : Lease α ε}

/-- The same but for the holder, each of whom has a request that stands. -/
def Alike (s s' : Lease α ε) : Prop :=
  s.ledger.Perm s'.ledger ∧ (s.hold = s'.hold ∨ ∃ a b u, s.hold = some (.leased (some a) u) ∧
    s'.hold = some (.leased (some b) u) ∧ (∃ t, (a, t) ∈ s.ledger) ∧ ∃ t, (b, t) ∈ s.ledger)

theorem Alike.refl (s : Lease α ε) : Alike s s := ⟨.refl _, .inl rfl⟩

theorem Alike.trans (h : Alike s s') (h' : Alike s' s'') : Alike s s'' := by
  refine ⟨h.1.trans h'.1, ?_⟩
  rcases h.2 with heq | ⟨a, b, u, ha, hb, hla, hlb⟩
  · rw [heq]
    refine h'.2.imp_right ?_
    rintro ⟨a, b, u, ha, hb, ⟨t, hta⟩, t', htb⟩
    exact ⟨a, b, u, ha, hb, ⟨t, h.1.mem_iff.mpr hta⟩, t', h.1.mem_iff.mpr htb⟩
  · rcases h'.2 with heq | ⟨a', b', u', ha', hb', -, t', htb'⟩
    · exact .inr ⟨a, b, u, ha, heq ▸ hb, hla, hlb⟩
    · have hu : u' = u := by
        rw [hb] at ha'
        cases ha'
        rfl
      exact .inr ⟨a, b', u, ha, hu ▸ hb', hla, t', h.1.mem_iff.mpr htb'⟩

theorem Alike.until_eq (h : Alike s s') : s.until? = s'.until? := by
  rcases h.2 with heq | ⟨a, b, u, ha, hb, -⟩
  · rw [until?, until?, heq]
  · rw [until?, until?, ha, hb]
    rfl

variable [DecidableEq α] [SemilatticeSup ε]

/-- A request takes a free lease, and prolongs one that is held. -/
def ask (a : α) (term : ε) : Option (Hold α ε) → Option (Hold α ε)
  | none => some (.leased (some a) term)
  | some (.fixed u) => some (.fixed u)
  | some (.leased holder u) => some (.leased (holder.or (some a)) (u ⊔ term))

/-- A lease ends with its holder. -/
def giveUp (a : α) : Option (Hold α ε) → Option (Hold α ε)
  | some (.leased (some b) u) => if b = a then none else some (.leased (some b) u)
  | h => h

def step (s : Lease α ε) : LeaseCall α ε → Lease α ε
  | .ask a term => ⟨ask a term s.hold, s.ledger ++ [(a, term)]⟩
  | .giveUp a => ⟨giveUp a s.hold, s.ledger.filter fun p => p.1 ≠ a⟩

/-- What stands on the ledger is held as long as was asked for. -/
def Covered (s : Lease α ε) : Prop :=
  s.ledger ≠ [] → ∃ h, s.hold = some h ∧ ∀ p ∈ s.ledger, p.2 ≤ h.term

/-- Nobody asks for more than a fixed term, and the holder gives up last. -/
def Meets (s : Lease α ε) : LeaseCall α ε → Prop
  | .ask _ term => ∀ u, s.hold = some (.fixed u) → term ≤ u
  | .giveUp a => ∀ u, s.hold = some (.leased (some a) u) → ∀ p ∈ s.ledger, p.1 = a

variable {c : LeaseCall α ε} {a b : α} {term u : ε}

omit [SemilatticeSup ε] in
theorem giveUp_of_ne {h : Option (Hold α ε)} (hne : ∀ u, h ≠ some (.leased (some a) u)) :
    giveUp a h = h := by
  unfold giveUp
  split
  · rename_i b u
    apply if_neg
    rintro rfl
    exact hne u rfl
  · rfl

omit [DecidableEq α] in
theorem ask_covers (a : α) (h : Hold α ε) (hfixed : ∀ u, h = .fixed u → term ≤ u) :
    ∃ h', ask a term (some h) = some h' ∧ h.term ≤ h'.term ∧ term ≤ h'.term := by
  cases h with
  | fixed u => exact ⟨_, rfl, le_refl u, hfixed u rfl⟩
  | leased holder u => exact ⟨_, rfl, le_sup_left, le_sup_right⟩

/-- One call keeps the ledger covered. -/
theorem covered_step (hs : s.Covered) (hc : s.Meets c) : (s.step c).Covered := by
  cases c with
  | ask a term =>
    intro _
    cases hhold : s.hold with
    | none =>
      have hempty : s.ledger = [] := by
        by_contra hne
        obtain ⟨h, hh, -⟩ := hs hne
        rw [hhold] at hh
        contradiction
      refine ⟨.leased (some a) term, by rw [step, hhold]; rfl, ?_⟩
      intro p hp
      rw [step, hempty, List.nil_append, List.mem_singleton] at hp
      rw [hp]
      exact le_refl term
    | some h =>
      have hfixed : ∀ u, h = .fixed u → term ≤ u := fun u hu => hc u (hhold.trans (congrArg some hu))
      obtain ⟨h', hask, hle, hterm⟩ := ask_covers a h hfixed
      refine ⟨h', by rw [step, hhold]; exact hask, ?_⟩
      intro p hp
      rcases List.mem_append.mp hp with hp | hp
      · obtain ⟨h₀, hh₀, hcovers⟩ := hs (List.ne_nil_of_mem hp)
        obtain rfl := Option.some.inj (hhold.symm.trans hh₀)
        exact le_trans (hcovers p hp) hle
      · rw [List.mem_singleton.mp hp]
        exact hterm
  | giveUp a =>
    intro hne
    have hledger : s.ledger ≠ [] := by
      intro hnil
      rw [step, hnil] at hne
      exact hne rfl
    obtain ⟨h, hhold, hcovers⟩ := hs hledger
    have hother : ∀ u, s.hold ≠ some (.leased (some a) u) := by
      intro u hu
      refine hne (List.filter_eq_nil_iff.mpr fun p hp => ?_)
      simp [hc u hu p hp]
    refine ⟨h, (giveUp_of_ne hother).trans hhold, ?_⟩
    intro p hp
    exact hcovers p (List.mem_of_mem_filter hp)

/-! ## The order of requests -/

theorem Alike.ask (h : Alike s s') : Alike (s.step (.ask a term)) (s'.step (.ask a term)) := by
  refine ⟨h.1.append_right _, ?_⟩
  rcases h.2 with heq | ⟨b, b', u, hb, hb', ⟨t, ht⟩, t', ht'⟩
  · exact .inl (congrArg (Lease.ask a term) heq)
  · refine .inr ⟨b, b', u ⊔ term, ?_, ?_, ⟨t, List.mem_append_left _ ht⟩,
      t', List.mem_append_left _ ht'⟩
    · rw [step, hb]
      rfl
    · rw [step, hb']
      rfl

theorem alike_swap : Alike ((s.step (.ask a term)).step (.ask b u))
    ((s.step (.ask b u)).step (.ask a term)) := by
  refine ⟨?_, ?_⟩
  · show ((s.ledger ++ [(a, term)]) ++ [(b, u)]).Perm ((s.ledger ++ [(b, u)]) ++ [(a, term)])
    rw [List.append_assoc, List.append_assoc]
    exact (List.Perm.swap _ _ _).append_left s.ledger
  · show Lease.ask b u (Lease.ask a term s.hold) = Lease.ask a term (Lease.ask b u s.hold) ∨ _
    cases hhold : s.hold with
    | none =>
      refine .inr ⟨a, b, term ⊔ u, ?_, ?_, ⟨term, by simp [step]⟩, u, by simp [step]⟩
      · show Lease.ask b u (Lease.ask a term s.hold) = _
        rw [hhold]
        rfl
      · show Lease.ask a term (Lease.ask b u s.hold) = _
        rw [hhold, sup_comm]
        rfl
    | some h =>
      cases h with
      | fixed v => exact .inl rfl
      | leased holder v =>
        cases holder with
        | some o =>
          refine .inl ?_
          show some (Hold.leased (some o) (v ⊔ term ⊔ u)) = some (.leased (some o) (v ⊔ u ⊔ term))
          rw [sup_right_comm]
        | none =>
          refine .inr ⟨a, b, v ⊔ term ⊔ u, ?_, ?_, ⟨term, by simp [step]⟩, u, by simp [step]⟩
          · show Lease.ask b u (Lease.ask a term s.hold) = _
            rw [hhold]
            rfl
          · show Lease.ask a term (Lease.ask b u s.hold) = _
            rw [hhold, sup_right_comm]
            rfl

def asks (s : Lease α ε) (requests : List (α × ε)) : Lease α ε :=
  requests.foldl (fun s p => s.step (.ask p.1 p.2)) s

theorem Alike.asks {requests : List (α × ε)} (h : Alike s s') :
    Alike (s.asks requests) (s'.asks requests) := by
  induction requests generalizing s s' with
  | nil => exact h
  | cons p requests ih => exact ih h.ask

/-- Requests made one after the other, in another order. -/
theorem alike_asks {requests requests' : List (α × ε)} (h : requests.Perm requests') :
    Alike (s.asks requests) (s.asks requests') := by
  induction h generalizing s with
  | nil => exact .refl s
  | cons p _ ih => exact ih
  | swap p q rest => exact alike_swap.asks
  | trans _ _ ih ih' => exact ih.trans ih'

/-- A call keeps the two alike, the holder of neither giving up before the other. -/
theorem alike_step (h : Alike s s') (hs : s.Meets c) (hs' : s'.Meets c) :
    Alike (s.step c) (s'.step c) := by
  cases c with
  | ask a term => exact h.ask
  | giveUp a =>
    refine ⟨h.1.filter _, ?_⟩
    rcases h.2 with heq | ⟨b, b', u, hb, hb', ⟨t, ht⟩, t', ht'⟩
    · exact .inl (congrArg (Lease.giveUp a) heq)
    · by_cases hsame : b = b'
      · exact .inl (congrArg (Lease.giveUp a) (hb.trans (hsame ▸ hb'.symm)))
      · have hba : b ≠ a := by
          rintro rfl
          exact hsame (hs u hb _ ht').symm
        have hba' : b' ≠ a := by
          rintro rfl
          exact hsame (hs' u hb' _ (h.1.mem_iff.mp ht))
        refine .inr ⟨b, b', u, ?_, ?_, ⟨t, ?_⟩, t', ?_⟩
        · rw [step, hb]
          exact if_neg hba
        · rw [step, hb']
          exact if_neg hba'
        · exact List.mem_filter.mpr ⟨ht, by simpa using hba⟩
        · exact List.mem_filter.mpr ⟨ht', by simpa using hba'⟩

end Lease

end Obliguard

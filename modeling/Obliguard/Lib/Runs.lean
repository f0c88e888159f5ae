import Mathlib.Logic.Function.Iterate
import Mathlib.Tactic.Common

/-!
# Runs of a transition system

A system is a partial step function: `step s a` is the state after the action `a`, `none` where the
action is not possible. `run` folds it over a list of actions. `StepsMeet ok s as` says that every
step of the run of `as` from `s` meets the condition `ok` at the state it starts from; with it an
invariant has to be preserved by such steps only (`run_invariant`). `run_simulation` lifts a
simulation of single steps to runs.

`Leads f s t` says that a deterministic program `f`, left alone, takes `s` to `t`; `leads_loop` is
its rule for a loop over a list.
-/

namespace Obliguard.Runs

variable {σ α : Type}

/-- The state after a list of actions. -/
def run (step : σ → α → Option σ) : σ → List α → Option σ
  | s, [] => some s
  | s, a :: as => (step s a).bind fun s' => run step s' as

/-- Every step of the run meets the condition. -/
def StepsMeet (step : σ → α → Option σ) (ok : σ → α → Prop) : σ → List α → Prop
  | _, [] => True
  | s, a :: as => ok s a ∧ ∀ s', step s a = some s' → StepsMeet step ok s' as

variable {step : σ → α → Option σ} {ok : σ → α → Prop} {s s' : σ} {as bs : List α}

theorem stepsMeet_cons_none {a : α} (h : step s a = none) :
    StepsMeet step ok s (a :: as) ↔ ok s a := by
  simp [StepsMeet, h]

theorem stepsMeet_cons_some {a : α} (h : step s a = some s') :
    StepsMeet step ok s (a :: as) ↔ ok s a ∧ StepsMeet step ok s' as := by
  simp [StepsMeet, h]

instance decidableStepsMeet [∀ s a, Decidable (ok s a)] :
    ∀ s as, Decidable (StepsMeet step ok s as)
  | _, [] => .isTrue trivial
  | s, a :: as =>
    match h : step s a with
    | none => decidable_of_iff _ (stepsMeet_cons_none h).symm
    | some t =>
      have := decidableStepsMeet t as
      decidable_of_iff _ (stepsMeet_cons_some h).symm

theorem run_cons {a : α} : run step s (a :: as) = some s' ↔
    ∃ t, step s a = some t ∧ run step t as = some s' := by
  rw [run, Option.bind_eq_some_iff]

theorem run_append : run step s (as ++ bs) = some s' ↔
    ∃ t, run step s as = some t ∧ run step t bs = some s' := by
  induction as generalizing s with
  | nil => simp [run]
  | cons a as ih =>
    rw [List.cons_append, run_cons]
    constructor
    · rintro ⟨t, ht, h⟩
      obtain ⟨u, hu, h⟩ := ih.mp h
      exact ⟨u, run_cons.mpr ⟨t, ht, hu⟩, h⟩
    · rintro ⟨u, hu, h⟩
      obtain ⟨t, ht, hu⟩ := run_cons.mp hu
      exact ⟨t, ht, ih.mpr ⟨u, hu, h⟩⟩

theorem stepsMeet_append : StepsMeet step ok s (as ++ bs) ↔ StepsMeet step ok s as ∧
    ∀ t, run step s as = some t → StepsMeet step ok t bs := by
  induction as generalizing s with
  | nil => simp [run, StepsMeet]
  | cons a as ih =>
    rw [List.cons_append, StepsMeet, StepsMeet]
    constructor
    · rintro ⟨hok, h⟩
      refine ⟨⟨hok, fun s' hs => (ih.mp (h s' hs)).1⟩, ?_⟩
      intro t ht
      obtain ⟨s', hs, ht⟩ := run_cons.mp ht
      exact (ih.mp (h s' hs)).2 t ht
    · rintro ⟨⟨hok, h⟩, h'⟩
      refine ⟨hok, ?_⟩
      intro s' hs
      exact ih.mpr ⟨h s' hs, fun t ht => h' t (run_cons.mpr ⟨s', hs, ht⟩)⟩

theorem stepsMeet_of_mem (h : ∀ a ∈ as, ∀ s, ok s a) : StepsMeet step ok s as := by
  induction as generalizing s with
  | nil => trivial
  | cons a as ih =>
    refine ⟨h a List.mem_cons_self s, ?_⟩
    intro s' _
    exact ih fun b hb => h b (List.mem_cons_of_mem a hb)

/-- What every step meeting the condition preserves, every run of such steps preserves. -/
theorem run_invariant {P : σ → Prop}
    (hstep : ∀ s a s', P s → ok s a → step s a = some s' → P s') (hs : P s)
    (hok : StepsMeet step ok s as) (h : run step s as = some s') : P s' := by
  induction as generalizing s with
  | nil => exact Option.some.inj h ▸ hs
  | cons a as ih =>
    obtain ⟨t, ht, h⟩ := run_cons.mp h
    exact ih (hstep s a t hs hok.1 ht) (hok.2 t ht) h

theorem run_preserves {P : σ → Prop} (hstep : ∀ s a s', P s → step s a = some s' → P s')
    (hs : P s) (h : run step s as = some s') : P s' := by
  induction as generalizing s with
  | nil => exact Option.some.inj h ▸ hs
  | cons a as ih =>
    obtain ⟨t, ht, h⟩ := run_cons.mp h
    exact ih (hstep s a t hs ht) h

/-- A step-by-step simulation carries over to runs. -/
theorem run_simulation {τ β : Type} {step' : τ → β → Option τ} {g : α → β} {R : σ → τ → Prop}
    (hstep : ∀ s a s' t, R s t → step s a = some s' → ∃ t', step' t (g a) = some t' ∧ R s' t')
    {t : τ} (hs : R s t) (h : run step s as = some s') :
    ∃ t', run step' t (as.map g) = some t' ∧ R s' t' := by
  induction as generalizing s t with
  | nil => exact ⟨t, rfl, Option.some.inj h ▸ hs⟩
  | cons a as ih =>
    obtain ⟨u, hu, h⟩ := run_cons.mp h
    obtain ⟨v, hv, huv⟩ := hstep s a u t hs hu
    obtain ⟨t', ht', hR⟩ := ih huv h
    exact ⟨t', run_cons.mpr ⟨v, hv, ht'⟩, hR⟩

/-! ## One program alone -/

/-- Some number of steps of `f` takes `s` to `t`. -/
def Leads (f : σ → σ) (s t : σ) : Prop := ∃ n, f^[n] s = t

namespace Leads

variable {f : σ → σ} {s t u : σ}

theorem refl (f : σ → σ) (s : σ) : Leads f s s := ⟨0, rfl⟩

theorem head (h : Leads f (f s) t) : Leads f s t := by
  obtain ⟨n, hn⟩ := h
  exact ⟨n + 1, hn⟩

theorem trans (h1 : Leads f s t) (h2 : Leads f t u) : Leads f s u := by
  obtain ⟨n, rfl⟩ := h1
  obtain ⟨m, rfl⟩ := h2
  exact ⟨m + n, Function.iterate_add_apply f m n s⟩

end Leads

/-- A program that takes one element of its list at a time runs through the list. -/
theorem leads_loop {π β : Type} {f : σ × π → σ × π} {g : σ → β → σ} {c : List β → π}
    (h : ∀ s b bs, f (s, c (b :: bs)) = (g s b, c bs)) (s : σ) (bs : List β) :
    Leads f (s, c bs) (bs.foldl g s, c []) := by
  induction bs generalizing s with
  | nil => exact Leads.refl f _
  | cons b bs ih =>
    apply Leads.head
    rw [h]
    exact ih (g s b)

end Obliguard.Runs

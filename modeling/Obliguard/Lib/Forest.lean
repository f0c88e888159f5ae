import Mathlib.Data.List.Nodup
import Mathlib.Data.List.Perm.Subperm
import Mathlib.Data.Nat.Find
import Mathlib.Logic.Function.Basic
import Mathlib.Tactic.Common

/-!
# Forests given by parents

`up parent n d` is the node that `n` parent steps lead to. Two changes of a forest: `up_update` says where the
paths go when a node is hung under another one that is not below it, `up_prune` where they go when nodes are
taken away with all that is below them.

A `PathTable` is a forest with a table of all its paths. A node is added to it as a root (`addRoot`), the paths out
of a subtree are dropped (`cut`), a root is hung under a node by the products of two sets of paths (`join`), and
nodes are taken away with their paths (`remove`).
-/

namespace Obliguard.Forest

variable {α : Type} {parent : α → Option α} {a d x : α} {m n k : Nat}

/-- The node reached by `n` parent steps. -/
def up (parent : α → Option α) : Nat → α → Option α
  | 0, d => some d
  | n + 1, d => (parent d).bind (up parent n)

/-- No node is its own ancestor. -/
def Acyclic (parent : α → Option α) : Prop := ∀ d n, up parent (n + 1) d ≠ some d

/-- `d` is `x` or below it. -/
def Below (parent : α → Option α) (x d : α) : Prop := ∃ k, up parent k d = some x

theorem up_add (m n : Nat) (d : α) : up parent (m + n) d = (up parent m d).bind (up parent n) := by
  induction m generalizing d with
  | zero => rw [Nat.zero_add, up, Option.bind_some]
  | succ m ih =>
    rw [Nat.succ_add_eq_add_succ, Nat.add_succ, up, up]
    cases parent d with
    | none => rfl
    | some e => exact ih e

theorem up_add_of_eq (h : up parent m d = some a) (n : Nat) : up parent (m + n) d = up parent n a := by
  rw [up_add, h, Option.bind_some]

theorem up_succ_of_parent (h : parent d = some a) (n : Nat) : up parent (n + 1) d = up parent n a := by
  rw [up, h, Option.bind_some]

theorem Below.trans (h : Below parent x a) (h' : Below parent a d) : Below parent x d := by
  obtain ⟨m, hm⟩ := h
  obtain ⟨n, hn⟩ := h'
  exact ⟨n + m, by rw [up_add_of_eq hn, hm]⟩

theorem Acyclic.unique (h : Acyclic parent) (hm : up parent m d = some a) (hn : up parent n d = some a) : m = n := by
  have hlt : ∀ {m n}, up parent m d = some a → up parent n d = some a → ¬ m < n := by
    intro m n hm hn hlt
    obtain ⟨k, rfl⟩ := Nat.exists_eq_add_of_lt hlt
    rw [Nat.add_assoc, up_add_of_eq hm] at hn
    exact h a k hn
  rcases Nat.lt_trichotomy m n with hmn | hmn | hmn
  · exact absurd hmn (hlt hm hn)
  · exact hmn
  · exact absurd hmn (hlt hn hm)

/-! ## Finite forests -/

theorem below_iff_le {nodes : List α} (hnodes : ∀ d e, parent d = some e → d ∈ nodes) :
    Below parent a d ↔ ∃ n ≤ nodes.length, up parent n d = some a := by
  classical
  refine ⟨fun h => ⟨Nat.find h, ?_, Nat.find_spec h⟩, fun ⟨n, _, hn⟩ => ⟨n, hn⟩⟩
  have hpath := Nat.find_spec h
  set n := Nat.find h with hn
  -- the nodes before the end are different: a shorter path would skip a loop
  have hdistinct : ((List.range n).map fun i => up parent i d).Nodup := by
    refine List.Nodup.map_on ?_ List.nodup_range
    have hlt : ∀ i j, i < j → j < n → up parent i d ≠ up parent j d := by
      intro i j hij hjn heq
      have hshort : up parent (i + (n - j)) d = some a := by
        rw [up_add, heq, ← up_add, Nat.add_sub_cancel' (Nat.le_of_lt hjn), hpath]
      exact Nat.find_min h (show i + (n - j) < n by omega) hshort
    intro i hi j hj heq
    rw [List.mem_range] at hi hj
    rcases Nat.lt_trichotomy i j with hij | hij | hij
    · exact absurd heq (hlt i j hij hj)
    · exact hij
    · exact absurd heq.symm (hlt j i hij hi)
  have hsubset : (List.range n).map (fun i => up parent i d) ⊆ nodes.map some := by
    intro o ho
    obtain ⟨i, hi, rfl⟩ := List.mem_map.mp ho
    rw [List.mem_range] at hi
    obtain ⟨k, hk⟩ := Nat.exists_eq_add_of_lt hi
    rw [hk, Nat.add_assoc, up_add] at hpath
    obtain ⟨e, he, hpath⟩ := Option.bind_eq_some_iff.mp hpath
    obtain ⟨e', he', -⟩ := Option.bind_eq_some_iff.mp hpath
    rw [he]
    exact List.mem_map_of_mem (hnodes e e' he')
  have hlen := (hdistinct.subperm hsubset).length_le
  rwa [List.length_map, List.length_range, List.length_map] at hlen

/-! ## A node is hung elsewhere -/

section update
variable [DecidableEq α] {p : Option α}

theorem up_update_of_le (h : ∀ j < k, up parent j d ≠ some x) (hn : n ≤ k) :
    up (Function.update parent x p) n d = up parent n d := by
  induction n generalizing d k with
  | zero => rfl
  | succ n ih =>
    obtain ⟨k, rfl⟩ := Nat.exists_eq_add_of_lt hn
    have hdx : d ≠ x := fun heq => h 0 (by omega) (congrArg some heq)
    rw [up, up, Function.update_of_ne hdx]
    cases hparent : parent d with
    | none => rfl
    | some e =>
      refine ih (k := n + k) (fun j hj => ?_) (Nat.le_add_right n k)
      rw [← up_succ_of_parent hparent]
      exact h (j + 1) (by omega)

theorem up_update_of_not_below (h : ¬ Below parent x d) :
    up (Function.update parent x p) n d = up parent n d :=
  up_update_of_le (fun j _ hj => h ⟨j, hj⟩) (Nat.le_refl n)

/-- The paths of the new forest: the old ones, but those that leave what is below the node, and those through its
new parent. -/
theorem up_update (hacyclic : Acyclic parent) (hp : ∀ q, p = some q → ¬ Below parent x q) :
    up (Function.update parent x p) n d = some a ↔
      up parent n d = some a ∧ (Below parent x d → Below parent x a) ∨
        ∃ q m k, p = some q ∧ up parent m q = some a ∧ up parent k d = some x ∧ n = m + k + 1 := by
  by_cases hbelow : Below parent x d
  · obtain ⟨k, hk⟩ := hbelow
    have hfirst : ∀ j < k, up parent j d ≠ some x := fun j hj hjx => by
      have := hacyclic.unique hjx hk
      omega
    rcases Nat.lt_or_ge k n with hkn | hnk
    · obtain ⟨m, rfl⟩ := Nat.exists_eq_add_of_lt hkn
      have hnew : up (Function.update parent x p) (k + m + 1) d = p.bind (up parent m) := by
        rw [Nat.add_assoc, up_add, up_update_of_le hfirst (Nat.le_refl k), hk, Option.bind_some, up,
          Function.update_self]
        cases p with
        | none => rfl
        | some q => exact up_update_of_not_below (hp q rfl)
      rw [hnew, Option.bind_eq_some_iff]
      constructor
      · rintro ⟨q, hq, hm⟩
        exact .inr ⟨q, m, k, hq, hm, hk, by omega⟩
      · rintro (⟨hn, hout⟩ | ⟨q, m', k', hq, hm, hk', heq⟩)
        · -- a path beyond the node does not lead back below it
          obtain ⟨j, hj⟩ := hout ⟨k, hk⟩
          have hunique := hacyclic.unique hk ((up_add_of_eq hn j).trans hj)
          omega
        · have hunique := hacyclic.unique hk hk'
          obtain rfl : m' = m := by omega
          exact ⟨q, hq, hm⟩
    · rw [up_update_of_le hfirst hnk]
      constructor
      · intro hn
        refine .inl ⟨hn, fun _ => ⟨k - n, ?_⟩⟩
        rw [← up_add_of_eq hn, Nat.add_sub_cancel' hnk, hk]
      · rintro (⟨hn, -⟩ | ⟨q, m, k', -, -, hk', heq⟩)
        · exact hn
        · have hunique := hacyclic.unique hk hk'
          omega
  · rw [up_update_of_not_below hbelow]
    constructor
    · exact fun hn => .inl ⟨hn, fun h => absurd h hbelow⟩
    · rintro (⟨hn, -⟩ | ⟨q, m, k, -, -, hk, -⟩)
      · exact hn
      · exact absurd ⟨k, hk⟩ hbelow

theorem Acyclic.update (hacyclic : Acyclic parent) (hp : ∀ q, p = some q → ¬ Below parent x q) :
    Acyclic (Function.update parent x p) := by
  intro d n h
  rcases (up_update hacyclic hp).mp h with ⟨hn, -⟩ | ⟨q, m, k, hq, hm, hk, -⟩
  · exact hacyclic d n hn
  · exact hp q hq ⟨m + k, by rw [up_add_of_eq hm, hk]⟩

end update

/-! ## Nodes are taken away -/

section prune
variable {gone : α → Prop} [DecidablePred gone]

/-- The forest without some nodes. -/
def prune (gone : α → Prop) [DecidablePred gone] (parent : α → Option α) (d : α) : Option α :=
  if gone d then none else parent d

/-- What is left of a path when whatever is below a missing node is missing. -/
theorem up_prune (hgone : ∀ d e, parent d = some e → gone e → gone d) (hd : ¬ gone d) :
    up (prune gone parent) n d = up parent n d ∧ ∀ a, up parent n d = some a → ¬ gone a := by
  induction n generalizing d with
  | zero => exact ⟨rfl, fun a h => Option.some.inj h ▸ hd⟩
  | succ n ih =>
    rw [up, up, prune, if_neg hd]
    cases hparent : parent d with
    | none => exact ⟨rfl, fun a h => nomatch h⟩
    | some e => exact ih fun he => hd (hgone d e hparent he)

theorem Acyclic.prune (hacyclic : Acyclic parent) (hgone : ∀ d e, parent d = some e → gone e → gone d) :
    Acyclic (prune gone parent) := by
  intro d n h
  by_cases hd : gone d
  · rw [up, Forest.prune, if_pos hd] at h
    contradiction
  · rw [(up_prune hgone hd).1] at h
    exact hacyclic d n h

end prune

/-! ## Tables of paths -/

/-- A forest, and the table of its paths. -/
structure PathTable (node : α → Prop) (parent : α → Option α) (link : α → α → Nat → Prop) : Prop where
  acyclic : Acyclic parent
  ends : ∀ d e, parent d = some e → node d ∧ node e
  link : ∀ a d n, link a d n ↔ node d ∧ up parent n d = some a

namespace PathTable
variable {node : α → Prop} {link link' : α → α → Nat → Prop} {q : α}

theorem node_of_up (h : PathTable node parent link) (hd : node d) (hup : up parent n d = some a) : node a := by
  induction n generalizing d with
  | zero => exact Option.some.inj hup ▸ hd
  | succ n ih =>
    obtain ⟨e, he, hup⟩ := Option.bind_eq_some_iff.mp hup
    exact ih (h.ends d e he).2 hup

theorem parent_of_not_node (h : PathTable node parent link) (hx : ¬ node x) : parent x = none := by
  cases hp : parent x with
  | none => rfl
  | some e => exact absurd (h.ends x e hp).1 hx

theorem node_of_below (h : PathTable node parent link) (hx : node x) (hbelow : Below parent x d) : node d := by
  obtain ⟨n, hn⟩ := hbelow
  cases n with
  | zero => exact Option.some.inj hn ▸ hx
  | succ n =>
    obtain ⟨e, he, -⟩ := Option.bind_eq_some_iff.mp hn
    exact (h.ends d e he).1

theorem link_self (h : PathTable node parent link) : link x x 0 ↔ node x :=
  (h.link x x 0).trans (and_iff_left rfl)

theorem exists_link (h : PathTable node parent link) : (∃ n, link x d n) ↔ node d ∧ Below parent x d := by
  constructor
  · rintro ⟨n, hn⟩
    obtain ⟨hd, hup⟩ := (h.link x d n).mp hn
    exact ⟨hd, n, hup⟩
  · rintro ⟨hd, n, hup⟩
    exact ⟨n, (h.link x d n).mpr ⟨hd, hup⟩⟩

/-- The path of a root to itself is entered. -/
theorem addRoot (h : PathTable node parent link) (hx : ¬ node x)
    (hlink : ∀ a d n, link' a d n ↔ link a d n ∨ a = x ∧ d = x ∧ n = 0) :
    PathTable (fun d => d = x ∨ node d) parent link' := by
  refine ⟨h.acyclic, fun d e he => (h.ends d e he).imp .inr .inr, fun a d n => ?_⟩
  rw [hlink, h.link]
  constructor
  · rintro (⟨hd, hup⟩ | ⟨rfl, rfl, rfl⟩)
    · exact ⟨.inr hd, hup⟩
    · exact ⟨.inl rfl, rfl⟩
  · rintro ⟨rfl | hd, hup⟩
    · cases n with
      | zero => exact .inr ⟨(Option.some.inj hup).symm, rfl, rfl⟩
      | succ n =>
        rw [up, h.parent_of_not_node hx] at hup
        contradiction
    · exact .inl ⟨hd, hup⟩

/-- Nodes are taken away with their paths. -/
theorem remove {gone : α → Prop} [DecidablePred gone] (h : PathTable node parent link)
    (hgone : ∀ d e, parent d = some e → gone e → gone d)
    (hlink : ∀ a d n, link' a d n ↔ link a d n ∧ ¬ gone a ∧ ¬ gone d) :
    PathTable (fun d => node d ∧ ¬ gone d) (prune gone parent) link' := by
  refine ⟨h.acyclic.prune hgone, fun d e he => ?_, fun a d n => ?_⟩
  · rw [prune] at he
    split at he
    · contradiction
    · rename_i hd
      exact ⟨⟨(h.ends d e he).1, hd⟩, (h.ends d e he).2, fun hgone' => hd (hgone d e he hgone')⟩
  · rw [hlink, h.link]
    constructor
    · rintro ⟨⟨hd, hup⟩, -, hdesc⟩
      exact ⟨⟨hd, hdesc⟩, (up_prune hgone hdesc).1.trans hup⟩
    · rintro ⟨⟨hd, hdesc⟩, hup⟩
      have hprune := up_prune (n := n) hgone hdesc
      rw [hprune.1] at hup
      exact ⟨⟨hd, hup⟩, hprune.2 a hup, hdesc⟩

section update
variable [DecidableEq α]

/-- The paths out of a subtree are dropped. -/
theorem cut (h : PathTable node parent link)
    (hlink : ∀ a d n, link' a d n ↔ link a d n ∧ (Below parent x d → Below parent x a)) :
    PathTable node (Function.update parent x none) link' := by
  have hnone : ∀ q, (none : Option α) = some q → ¬ Below parent x q := fun q hq => (nomatch hq)
  refine ⟨h.acyclic.update hnone, fun d e he => ?_, fun a d n => ?_⟩
  · by_cases hd : d = x
    · rw [hd, Function.update_self] at he
      contradiction
    · rw [Function.update_of_ne hd] at he
      exact h.ends d e he
  · rw [hlink, h.link, up_update h.acyclic hnone, and_assoc]
    refine and_congr_right fun hd => ⟨.inl, fun hup => hup.resolve_right ?_⟩
    rintro ⟨q, m, k, hq, -⟩
    contradiction

/-- A root is hung under a node that is not below it. -/
theorem join (h : PathTable node parent link) (hroot : parent x = none) (hx : node x) (hq : node q)
    (hbelow : ¬ Below parent x q)
    (hlink : ∀ a d n, link' a d n ↔ link a d n ∨ ∃ m k, link a q m ∧ link x d k ∧ n = m + k + 1) :
    PathTable node (Function.update parent x (some q)) link' := by
  have hbelow' : ∀ q', some q = some q' → ¬ Below parent x q' := fun q' hq' => Option.some.inj hq' ▸ hbelow
  refine ⟨h.acyclic.update hbelow', fun d e he => ?_, fun a d n => ?_⟩
  · by_cases hd : d = x
    · rw [hd, Function.update_self] at he
      rw [hd, ← Option.some.inj he]
      exact ⟨hx, hq⟩
    · rw [Function.update_of_ne hd] at he
      exact h.ends d e he
  · rw [hlink, up_update h.acyclic hbelow', h.link]
    constructor
    · rintro (⟨hd, hup⟩ | ⟨m, k, hm, hk, hn⟩)
      · refine ⟨hd, .inl ⟨hup, fun ⟨k, hk⟩ => ?_⟩⟩
        -- a path that starts below a root ends at it
        rcases Nat.lt_or_ge k n with hkn | hnk
        · obtain ⟨j, rfl⟩ := Nat.exists_eq_add_of_lt hkn
          rw [Nat.add_assoc, up_add_of_eq hk, up, hroot] at hup
          contradiction
        · exact ⟨k - n, by rw [← up_add_of_eq hup, Nat.add_sub_cancel' hnk, hk]⟩
      · rw [h.link] at hm hk
        exact ⟨hk.1, .inr ⟨q, m, k, rfl, hm.2, hk.2, hn⟩⟩
    · rintro ⟨hd, ⟨hup, -⟩ | ⟨q', m, k, hq', hm, hk, hn⟩⟩
      · exact .inl ⟨hd, hup⟩
      · obtain rfl := Option.some.inj hq'
        exact .inr ⟨m, k, (h.link a q m).mpr ⟨hq, hm⟩, (h.link x d k).mpr ⟨hd, hk⟩, hn⟩

/-- A root with nothing below it is hung under a node: the paths of the node are copied. -/
theorem joinLeaf (h : PathTable node parent link) (hroot : parent x = none) (hx : node x) (hq : node q)
    (hne : q ≠ x) (hleaf : ∀ d n, link x d n → d = x)
    (hlink : ∀ a d n, link' a d n ↔ link a d n ∨ d = x ∧ ∃ m, link a q m ∧ n = m + 1) :
    PathTable node (Function.update parent x (some q)) link' := by
  have hself : ∀ d k, link x d k ↔ d = x ∧ k = 0 := by
    intro d k
    constructor
    · intro hk
      obtain rfl := hleaf d k hk
      exact ⟨rfl, h.acyclic.unique ((h.link _ _ k).mp hk).2 rfl⟩
    · rintro ⟨rfl, rfl⟩
      exact h.link_self.mpr hx
  refine h.join hroot hx hq (fun ⟨k, hk⟩ => hne (hleaf q k ((h.link x q k).mpr ⟨hq, hk⟩))) fun a d n => ?_
  rw [hlink]
  refine or_congr_right ?_
  constructor
  · rintro ⟨hd, m, hm, hn⟩
    exact ⟨m, 0, hm, (hself d 0).mpr ⟨hd, rfl⟩, hn⟩
  · rintro ⟨m, k, hm, hk, hn⟩
    obtain ⟨hd, rfl⟩ := (hself d k).mp hk
    exact ⟨hd, m, hm, hn⟩

end update

end PathTable

end Obliguard.Forest

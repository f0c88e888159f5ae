import Mathlib.Data.List.Basic
import Mathlib.Tactic.Common

/-!
# Regular expressions with priorities

`find` is the search of a backtracking matcher: the leftmost match, and of the matches there the one that is tried
first. `run` lists the ways to match a pattern at the head of a text, first choice first.

What a pattern matches is read off `run` by one membership lemma for each construct; what comes first is read off by
`head?_run_many` and `find_eq_some`.
-/

namespace Obliguard

/-- A pattern. `many` and `lazy` repeat single characters, the longest and the shortest repetition first; `star`
repeats a pattern without groups that matches no empty text; `stop` is before a character that is not in `p`, or at the
end. -/
inductive Rx
  | lit (text : List Char)
  | set (p : Char → Bool)
  | many (p : Char → Bool)
  | lazy (p : Char → Bool)
  | star (greedy : Bool) (a : Rx)
  | seq (a b : Rx)
  | alt (a b : Rx)
  | capture (a : Rx)
  | stop (p : Char → Bool)
  | ends

namespace Rx

@[simp] def groups : Rx → Nat
  | lit _ => 0
  | set _ => 0
  | many _ => 0
  | lazy _ => 0
  | star _ _ => 0
  | seq a b => a.groups + b.groups
  | alt a b => a.groups + b.groups
  | capture a => a.groups + 1
  | stop _ => 0
  | ends => 0

/-- The texts of the groups, in the order of their opening brackets, and the rest of the text. -/
abbrev Outcome := List (List Char) × List Char

/-- The rests after a repetition, the longest repetition first. -/
def runMany (p : Char → Bool) : List Char → List (List Char)
  | [] => [[]]
  | c :: s => if p c then runMany p s ++ [c :: s] else [c :: s]

def runSet (p : Char → Bool) : List Char → List Outcome
  | [] => []
  | c :: s => if p c then [([], s)] else []

/-- The rests after at most `n` repetitions of a part with the rests `rests`. -/
def runStar (greedy : Bool) (rests : List Char → List (List Char)) : Nat → List Char → List (List Char)
  | 0, s => [s]
  | n + 1, s =>
    let more := ((rests s).filter fun v => v.length < s.length).flatMap (runStar greedy rests n)
    if greedy then more ++ [s] else s :: more

def runStop (p : Char → Bool) (s : List Char) : List Outcome := if s.head?.any p then [] else [([], s)]

/-- The ways to match at the head of a text, the first choice first. -/
def run : Rx → List Char → List Outcome
  | lit text, s => if text.isPrefixOf s then [([], s.drop text.length)] else []
  | set p, s => runSet p s
  | many p, s => (runMany p s).map fun v => ([], v)
  | lazy p, s => (runMany p s).reverse.map fun v => ([], v)
  | star greedy a, s => (runStar greedy (fun t => (run a t).map (·.2)) s.length s).map fun v => ([], v)
  | seq a b, s => (run a s).flatMap fun o => (run b o.2).map fun o' => (o.1 ++ o'.1, o'.2)
  | alt a b, s =>
    (run a s).map (fun o => (o.1 ++ List.replicate b.groups [], o.2)) ++
      (run b s).map fun o => (List.replicate a.groups [] ++ o.1, o.2)
  | capture a, s => (run a s).map fun o => (s.take (s.length - o.2.length) :: o.1, o.2)
  | stop p, s => runStop p s
  | ends, s => if s = [] then [([], [])] else []

/-- `\d`. -/
def digit (c : Char) : Bool := '0' ≤ c && c ≤ '9'

/-- `\s`. -/
def blank (c : Char) : Bool := c == ' ' || c == '\t' || c == '\n' || c == '\r' || c == '\x0c'

/-- `.`. -/
def dot (c : Char) : Bool := c != '\n'

/-- `a?`. -/
def opt (a : Rx) : Rx := alt a (lit [])

/-- `p+`. -/
def some1 (p : Char → Bool) : Rx := seq (set p) (many p)

/-- One of some texts. -/
@[simp] def anyOf : List (List Char) → Rx
  | [] => set fun _ => false
  | text :: texts => alt (lit text) (anyOf texts)

/-- A match at the head of the text: the matched text and the groups. -/
def matchHead (r : Rx) (s : List Char) : Option (List (List Char)) :=
  (r.run s).head?.map fun o => s.take (s.length - o.2.length) :: o.1

/-- The leftmost match. -/
def find (r : Rx) : List Char → Option (List (List Char))
  | [] => r.matchHead []
  | c :: s => (r.matchHead (c :: s)).or (r.find s)

/-! ## What is matched -/

section mem
variable {p : Char → Bool} {a b r : Rx} {s v : List Char} {c : List (List Char)}

theorem run_lit {text : List Char} : run (lit text) s = if text.isPrefixOf s then [([], s.drop text.length)] else [] :=
  rfl

theorem run_many : run (many p) s = (runMany p s).map fun v => ([], v) := rfl

theorem run_lazy : run (lazy p) s = (runMany p s).reverse.map fun v => ([], v) := rfl

theorem run_star {greedy : Bool} : run (star greedy a) s =
    (runStar greedy (fun t => (run a t).map (·.2)) s.length s).map fun v => ([], v) := rfl

theorem run_seq : run (seq a b) s = (run a s).flatMap fun o => (run b o.2).map fun o' => (o.1 ++ o'.1, o'.2) := rfl

theorem run_alt : run (alt a b) s = (run a s).map (fun o => (o.1 ++ List.replicate b.groups [], o.2)) ++
    (run b s).map fun o => (List.replicate a.groups [] ++ o.1, o.2) := rfl

theorem run_capture : run (capture a) s = (run a s).map fun o => (s.take (s.length - o.2.length) :: o.1, o.2) := rfl

theorem mem_runMany : v ∈ runMany p s ↔ ∃ u, s = u ++ v ∧ ∀ x ∈ u, p x = true := by
  induction s with
  | nil => simp [runMany]
  | cons x s ih =>
    rw [runMany]
    split
    next hx =>
      rw [List.mem_append, ih, List.mem_singleton]
      constructor
      · rintro (⟨u, rfl, hu⟩ | rfl)
        · exact ⟨x :: u, rfl, List.forall_mem_cons.mpr ⟨hx, hu⟩⟩
        · exact ⟨[], rfl, fun _ h => absurd h List.not_mem_nil⟩
      · rintro ⟨u, hs, hu⟩
        cases u with
        | nil => exact .inr hs.symm
        | cons y u =>
          obtain ⟨-, hs⟩ := List.cons.inj hs
          exact .inl ⟨u, hs, (List.forall_mem_cons.mp hu).2⟩
    next hx =>
      rw [List.mem_singleton]
      constructor
      · rintro rfl
        exact ⟨[], rfl, fun _ h => absurd h List.not_mem_nil⟩
      · rintro ⟨u, hs, hu⟩
        cases u with
        | nil => exact hs.symm
        | cons y u =>
          obtain ⟨rfl, -⟩ := List.cons.inj hs
          exact absurd (hu x List.mem_cons_self) hx

theorem mem_run_lit {text : List Char} : (c, v) ∈ run (lit text) s ↔ c = [] ∧ s = text ++ v := by
  rw [run_lit]
  split
  next h =>
    obtain ⟨t, rfl⟩ := List.isPrefixOf_iff_prefix.mp h
    rw [List.mem_singleton, Prod.mk.injEq, List.drop_left, List.append_cancel_left_eq, eq_comm (a := v)]
  next h =>
    constructor
    · exact fun hmem => absurd hmem List.not_mem_nil
    · rintro ⟨-, rfl⟩
      exact absurd (List.isPrefixOf_iff_prefix.mpr (List.prefix_append _ _)) h

theorem mem_run_set : (c, v) ∈ run (set p) s ↔ c = [] ∧ ∃ x, p x = true ∧ s = x :: v := by
  show _ ∈ runSet p s ↔ _
  cases s with
  | nil => simp [runSet]
  | cons x s =>
    rw [runSet]
    split
    next hx =>
      rw [List.mem_singleton, Prod.mk.injEq]
      constructor
      · rintro ⟨rfl, rfl⟩
        exact ⟨rfl, x, hx, rfl⟩
      · rintro ⟨rfl, y, -, hs⟩
        exact ⟨rfl, (List.cons.inj hs).2.symm⟩
    next hx =>
      constructor
      · exact fun hmem => absurd hmem List.not_mem_nil
      · rintro ⟨-, y, hy, hs⟩
        exact absurd ((List.cons.inj hs).1 ▸ hy) hx

theorem mem_run_many : (c, v) ∈ run (many p) s ↔ c = [] ∧ ∃ u, s = u ++ v ∧ ∀ x ∈ u, p x = true := by
  rw [run_many, List.mem_map]
  constructor
  · rintro ⟨v', hv, h⟩
    obtain ⟨rfl, rfl⟩ := Prod.mk.inj h
    exact ⟨rfl, mem_runMany.mp hv⟩
  · rintro ⟨rfl, hv⟩
    exact ⟨v, mem_runMany.mpr hv, rfl⟩

theorem mem_run_seq : (c, v) ∈ run (seq a b) s ↔
    ∃ c₁ m c₂, (c₁, m) ∈ run a s ∧ (c₂, v) ∈ run b m ∧ c = c₁ ++ c₂ := by
  rw [run_seq, List.mem_flatMap]
  constructor
  · rintro ⟨⟨c₁, m⟩, hm, hv⟩
    obtain ⟨⟨c₂, v'⟩, hv', h⟩ := List.mem_map.mp hv
    obtain ⟨rfl, rfl⟩ := Prod.mk.inj h
    exact ⟨c₁, m, c₂, hm, hv', rfl⟩
  · rintro ⟨c₁, m, c₂, hm, hv, rfl⟩
    exact ⟨(c₁, m), hm, List.mem_map.mpr ⟨(c₂, v), hv, rfl⟩⟩

theorem mem_run_alt : (c, v) ∈ run (alt a b) s ↔
    (∃ c', (c', v) ∈ run a s ∧ c = c' ++ List.replicate b.groups []) ∨
      ∃ c', (c', v) ∈ run b s ∧ c = List.replicate a.groups [] ++ c' := by
  rw [run_alt, List.mem_append, List.mem_map, List.mem_map]
  constructor
  · rintro (⟨⟨c', v'⟩, hv, h⟩ | ⟨⟨c', v'⟩, hv, h⟩)
    · obtain ⟨rfl, rfl⟩ := Prod.mk.inj h
      exact .inl ⟨c', hv, rfl⟩
    · obtain ⟨rfl, rfl⟩ := Prod.mk.inj h
      exact .inr ⟨c', hv, rfl⟩
  · rintro (⟨c', hv, rfl⟩ | ⟨c', hv, rfl⟩)
    · exact .inl ⟨(c', v), hv, rfl⟩
    · exact .inr ⟨(c', v), hv, rfl⟩

theorem mem_runStar {greedy : Bool} {rests : List Char → List (List Char)} {n : Nat} (hn : s.length ≤ n) :
    v ∈ runStar greedy rests n s ↔
      v = s ∨ ∃ m ∈ rests s, m.length < s.length ∧ v ∈ runStar greedy rests m.length m := by
  induction hlen : s.length using Nat.strongRecOn generalizing s n v with
  | _ k ih =>
    subst hlen
    cases n with
    | zero =>
      obtain rfl : s = [] := List.eq_nil_of_length_eq_zero (by omega)
      simp [runStar]
    | succ n =>
      have hmore : v ∈ ((rests s).filter fun v => v.length < s.length).flatMap (runStar greedy rests n) ↔
          ∃ m ∈ rests s, m.length < s.length ∧ v ∈ runStar greedy rests m.length m := by
        simp only [List.mem_flatMap, List.mem_filter, decide_eq_true_eq, and_assoc]
        refine exists_congr fun m => and_congr_right fun _ => and_congr_right fun hm => ?_
        rw [ih m.length hm (by omega) rfl, ih m.length hm (Nat.le_refl _) rfl]
      rw [runStar]
      split
      · rw [List.mem_append, hmore, List.mem_singleton, or_comm]
      · rw [List.mem_cons, hmore]

theorem mem_run_lazy : (c, v) ∈ run (lazy p) s ↔ c = [] ∧ ∃ u, s = u ++ v ∧ ∀ x ∈ u, p x = true := by
  rw [← mem_run_many, run_lazy, run_many, List.map_reverse, List.mem_reverse]

theorem mem_run_stop : (c, v) ∈ run (stop p) s ↔ c = [] ∧ v = s ∧ ∀ x ∈ s.head?, p x = false := by
  show _ ∈ runStop p s ↔ _
  rw [runStop]
  cases s with
  | nil => simp
  | cons x s => cases hx : p x <;> simp [hx]

theorem mem_run_ends : (c, v) ∈ run ends s ↔ c = [] ∧ s = [] ∧ v = [] := by
  show _ ∈ (if s = [] then [([], [])] else []) ↔ _
  split
  next h => simp [h]
  next h => simp [h]

theorem mem_run_opt : (c, v) ∈ run (opt a) s ↔
    (c, v) ∈ run a s ∨ c = List.replicate a.groups [] ∧ v = s := by
  rw [opt, mem_run_alt]
  refine or_congr ?_ ?_
  · simp [groups]
  · simp only [mem_run_lit, List.nil_append]
    constructor
    · rintro ⟨c', ⟨rfl, rfl⟩, rfl⟩
      exact ⟨List.append_nil _, rfl⟩
    · rintro ⟨rfl, rfl⟩
      exact ⟨[], ⟨rfl, rfl⟩, (List.append_nil _).symm⟩

theorem mem_run_some1 : (c, v) ∈ run (some1 p) s ↔ c = [] ∧ ∃ u, s = u ++ v ∧ u ≠ [] ∧ ∀ x ∈ u, p x = true := by
  rw [some1, mem_run_seq]
  constructor
  · rintro ⟨c₁, m, c₂, hset, hmany, rfl⟩
    obtain ⟨rfl, x, hx, rfl⟩ := mem_run_set.mp hset
    obtain ⟨rfl, u, rfl, hu⟩ := mem_run_many.mp hmany
    exact ⟨rfl, x :: u, rfl, List.cons_ne_nil _ _, List.forall_mem_cons.mpr ⟨hx, hu⟩⟩
  · rintro ⟨rfl, u, rfl, hne, hu⟩
    obtain ⟨x, u, rfl⟩ := List.exists_cons_of_ne_nil hne
    obtain ⟨hx, hu⟩ := List.forall_mem_cons.mp hu
    exact ⟨[], u ++ v, [], mem_run_set.mpr ⟨rfl, x, hx, rfl⟩, mem_run_many.mpr ⟨rfl, u, rfl, hu⟩, rfl⟩

theorem groups_anyOf (texts : List (List Char)) : (anyOf texts).groups = 0 := by
  induction texts with
  | nil => rfl
  | cons text texts ih => rw [anyOf, groups, groups, ih]

theorem mem_run_anyOf {texts : List (List Char)} :
    (c, v) ∈ run (anyOf texts) s ↔ c = [] ∧ ∃ text ∈ texts, s = text ++ v := by
  induction texts generalizing c with
  | nil => simp [anyOf, mem_run_set]
  | cons text texts ih =>
    simp only [anyOf, mem_run_alt, mem_run_lit, ih, groups_anyOf, groups, List.replicate_zero, List.append_nil,
      List.nil_append, List.exists_mem_cons_iff]
    grind

theorem exists_append_of_mem_run (h : (c, v) ∈ run r s) : ∃ u, s = u ++ v := by
  induction r generalizing s c v with
  | lit text => exact ⟨text, (mem_run_lit.mp h).2⟩
  | set p =>
    obtain ⟨-, x, -, rfl⟩ := mem_run_set.mp h
    exact ⟨[x], rfl⟩
  | many p =>
    obtain ⟨-, u, hs, -⟩ := mem_run_many.mp h
    exact ⟨u, hs⟩
  | lazy p =>
    obtain ⟨-, u, hs, -⟩ := mem_run_lazy.mp h
    exact ⟨u, hs⟩
  | star greedy a iha =>
    rw [run_star, List.mem_map] at h
    obtain ⟨v', hv, h⟩ := h
    obtain ⟨-, rfl⟩ := Prod.mk.inj h
    clear h
    induction hlen : s.length using Nat.strongRecOn generalizing s with
    | _ k ih =>
      subst hlen
      rcases (mem_runStar (Nat.le_refl _)).mp hv with rfl | ⟨m, hm, hlt, hrest⟩
      · exact ⟨[], rfl⟩
      · obtain ⟨⟨c', m'⟩, hm', rfl⟩ := List.mem_map.mp hm
        obtain ⟨u, rfl⟩ := iha hm'
        obtain ⟨u', rfl⟩ := ih m'.length hlt (s := m') hrest rfl
        exact ⟨u ++ u', (List.append_assoc _ _ _).symm⟩
  | stop p =>
    obtain ⟨-, rfl, -⟩ := mem_run_stop.mp h
    exact ⟨[], rfl⟩
  | seq a b iha ihb =>
    obtain ⟨c₁, m, c₂, hm, hv, -⟩ := mem_run_seq.mp h
    obtain ⟨u, rfl⟩ := iha hm
    obtain ⟨u', rfl⟩ := ihb hv
    exact ⟨u ++ u', (List.append_assoc _ _ _).symm⟩
  | alt a b iha ihb =>
    obtain ⟨c', hv, -⟩ | ⟨c', hv, -⟩ := mem_run_alt.mp h
    · exact iha hv
    · exact ihb hv
  | capture a iha =>
    rw [run_capture, List.mem_map] at h
    obtain ⟨⟨c', v'⟩, hv, h⟩ := h
    obtain ⟨-, rfl⟩ := Prod.mk.inj h
    exact iha hv
  | ends =>
    obtain ⟨-, rfl, rfl⟩ := mem_run_ends.mp h
    exact ⟨[], rfl⟩

theorem length_of_mem_run (h : (c, v) ∈ run r s) : c.length = r.groups := by
  induction r generalizing s c v with
  | lit text => rw [(mem_run_lit.mp h).1, groups, List.length_nil]
  | set p => rw [(mem_run_set.mp h).1, groups, List.length_nil]
  | many p => rw [(mem_run_many.mp h).1, groups, List.length_nil]
  | lazy p => rw [(mem_run_lazy.mp h).1, groups, List.length_nil]
  | star greedy a _ =>
    rw [run_star, List.mem_map] at h
    obtain ⟨v', -, h⟩ := h
    rw [← (Prod.mk.inj h).1, groups, List.length_nil]
  | seq a b iha ihb =>
    obtain ⟨c₁, m, c₂, hm, hv, rfl⟩ := mem_run_seq.mp h
    rw [List.length_append, iha hm, ihb hv, groups]
  | alt a b iha ihb =>
    obtain ⟨c', hv, rfl⟩ | ⟨c', hv, rfl⟩ := mem_run_alt.mp h
    · rw [List.length_append, List.length_replicate, iha hv, groups]
    · rw [List.length_append, List.length_replicate, ihb hv, groups]
  | capture a iha =>
    rw [run_capture, List.mem_map] at h
    obtain ⟨⟨c', v'⟩, hv, h⟩ := h
    rw [← (Prod.mk.inj h).1, List.length_cons, iha hv, groups]
  | stop p => rw [(mem_run_stop.mp h).1, groups, List.length_nil]
  | ends => rw [(mem_run_ends.mp h).1, groups, List.length_nil]

theorem mem_run_seq_of_groups (hgroups : a.groups = 0) : (c, v) ∈ run (seq a b) s ↔
    ∃ m, ([], m) ∈ run a s ∧ (c, v) ∈ run b m := by
  rw [mem_run_seq]
  constructor
  · rintro ⟨c₁, m, c₂, hm, hv, rfl⟩
    obtain rfl : c₁ = [] := List.eq_nil_of_length_eq_zero ((length_of_mem_run hm).trans hgroups)
    exact ⟨m, hm, hv⟩
  · rintro ⟨m, hm, hv⟩
    exact ⟨[], m, c, hm, hv, rfl⟩

theorem mem_run_capture : (c, v) ∈ run (capture a) s ↔ ∃ u c', s = u ++ v ∧ (c', v) ∈ run a s ∧ c = u :: c' := by
  have htake (u : List Char) : (u ++ v).take ((u ++ v).length - v.length) = u := by
    rw [List.length_append, Nat.add_sub_cancel, List.take_left]
  rw [run_capture, List.mem_map]
  constructor
  · rintro ⟨⟨c', v'⟩, hv, h⟩
    obtain ⟨rfl, rfl⟩ := Prod.mk.inj h
    obtain ⟨u, rfl⟩ := exists_append_of_mem_run hv
    exact ⟨u, c', rfl, hv, by rw [htake]⟩
  · rintro ⟨u, c', rfl, hv, rfl⟩
    exact ⟨(c', v), hv, by rw [htake]⟩

theorem mem_run_lit_seq {text : List Char} : (c, v) ∈ run (seq (lit text) b) s ↔
    ∃ m, s = text ++ m ∧ (c, v) ∈ run b m := by
  rw [mem_run_seq]
  constructor
  · rintro ⟨c₁, m, c₂, hm, hv, rfl⟩
    obtain ⟨rfl, rfl⟩ := mem_run_lit.mp hm
    exact ⟨m, rfl, hv⟩
  · rintro ⟨m, rfl, hv⟩
    exact ⟨[], m, c, mem_run_lit.mpr ⟨rfl, rfl⟩, hv, rfl⟩

theorem mem_run_many_seq : (c, v) ∈ run (seq (many p) b) s ↔
    ∃ u m, s = u ++ m ∧ (∀ x ∈ u, p x = true) ∧ (c, v) ∈ run b m := by
  rw [mem_run_seq]
  constructor
  · rintro ⟨c₁, m, c₂, hm, hv, rfl⟩
    obtain ⟨rfl, u, rfl, hu⟩ := mem_run_many.mp hm
    exact ⟨u, m, rfl, hu, hv⟩
  · rintro ⟨u, m, rfl, hu, hv⟩
    exact ⟨[], m, c, mem_run_many.mpr ⟨rfl, u, rfl, hu⟩, hv, rfl⟩

theorem mem_run_some1_seq : (c, v) ∈ run (seq (some1 p) b) s ↔
    ∃ u m, s = u ++ m ∧ (u ≠ [] ∧ ∀ x ∈ u, p x = true) ∧ (c, v) ∈ run b m := by
  rw [mem_run_seq]
  constructor
  · rintro ⟨c₁, m, c₂, hm, hv, rfl⟩
    obtain ⟨rfl, u, rfl, hu⟩ := mem_run_some1.mp hm
    exact ⟨u, m, rfl, hu, hv⟩
  · rintro ⟨u, m, rfl, hu, hv⟩
    exact ⟨[], m, c, mem_run_some1.mpr ⟨rfl, u, rfl, hu⟩, hv, rfl⟩

theorem mem_run_capture_seq : (c, v) ∈ run (seq (capture a) b) s ↔
    ∃ u m c₁ c₂, s = u ++ m ∧ (c₁, m) ∈ run a s ∧ (c₂, v) ∈ run b m ∧ c = u :: (c₁ ++ c₂) := by
  rw [mem_run_seq]
  constructor
  · rintro ⟨c₁, m, c₂, hm, hv, rfl⟩
    obtain ⟨u, c', rfl, ha, rfl⟩ := mem_run_capture.mp hm
    exact ⟨u, m, c', c₂, rfl, ha, hv, rfl⟩
  · rintro ⟨u, m, c', c₂, rfl, hm, hv, rfl⟩
    exact ⟨u :: c', m, c₂, mem_run_capture.mpr ⟨u, c', rfl, hm, rfl⟩, hv, rfl⟩

theorem mem_run_capture_many_seq : (c, v) ∈ run (seq (capture (many p)) b) s ↔
    ∃ u m c', s = u ++ m ∧ (∀ x ∈ u, p x = true) ∧ (c', v) ∈ run b m ∧ c = u :: c' := by
  rw [mem_run_capture_seq]
  constructor
  · rintro ⟨u, m, c₁, c₂, rfl, hm, hv, rfl⟩
    obtain ⟨rfl, u', hu', hp⟩ := mem_run_many.mp hm
    rw [List.append_cancel_right hu']
    exact ⟨u', m, c₂, rfl, hp, hv, rfl⟩
  · rintro ⟨u, m, c', rfl, hu, hv, rfl⟩
    exact ⟨u, m, [], c', rfl, mem_run_many.mpr ⟨rfl, u, rfl, hu⟩, hv, rfl⟩

theorem mem_run_capture_some1_seq : (c, v) ∈ run (seq (capture (some1 p)) b) s ↔
    ∃ u m c', s = u ++ m ∧ (u ≠ [] ∧ ∀ x ∈ u, p x = true) ∧ (c', v) ∈ run b m ∧ c = u :: c' := by
  rw [mem_run_capture_seq]
  constructor
  · rintro ⟨u, m, c₁, c₂, rfl, hm, hv, rfl⟩
    obtain ⟨rfl, u', hu', hp⟩ := mem_run_some1.mp hm
    rw [List.append_cancel_right hu']
    exact ⟨u', m, c₂, rfl, hp, hv, rfl⟩
  · rintro ⟨u, m, c', rfl, hu, hv, rfl⟩
    exact ⟨u, m, [], c', rfl, mem_run_some1.mpr ⟨rfl, u, rfl, hu⟩, hv, rfl⟩

theorem mem_run_capture_anyOf_seq {texts : List (List Char)} : (c, v) ∈ run (seq (capture (anyOf texts)) b) s ↔
    ∃ u m c', s = u ++ m ∧ u ∈ texts ∧ (c', v) ∈ run b m ∧ c = u :: c' := by
  rw [mem_run_capture_seq]
  constructor
  · rintro ⟨u, m, c₁, c₂, rfl, hm, hv, rfl⟩
    obtain ⟨rfl, u', hu', heq⟩ := mem_run_anyOf.mp hm
    rw [List.append_cancel_right heq]
    exact ⟨u', m, c₂, rfl, hu', hv, rfl⟩
  · rintro ⟨u, m, c', rfl, hu, hv, rfl⟩
    exact ⟨u, m, [], c', rfl, mem_run_anyOf.mpr ⟨rfl, u, hu, rfl⟩, hv, rfl⟩

theorem mem_run_anyOf_seq {texts : List (List Char)} : (c, v) ∈ run (seq (anyOf texts) b) s ↔
    ∃ u m, s = u ++ m ∧ u ∈ texts ∧ (c, v) ∈ run b m := by
  rw [mem_run_seq]
  constructor
  · rintro ⟨c₁, m, c₂, hm, hv, rfl⟩
    obtain ⟨rfl, u, hu, rfl⟩ := mem_run_anyOf.mp hm
    exact ⟨u, m, rfl, hu, hv⟩
  · rintro ⟨u, m, rfl, hu, hv⟩
    exact ⟨[], m, c, mem_run_anyOf.mpr ⟨rfl, u, hu, rfl⟩, hv, rfl⟩

theorem mem_run_opt_seq (hgroups : a.groups = 0) : (c, v) ∈ run (seq (opt a) b) s ↔
    (c, v) ∈ run (seq a b) s ∨ (c, v) ∈ run b s := by
  rw [mem_run_seq, mem_run_seq]
  constructor
  · rintro ⟨c₁, m, c₂, hm, hv, rfl⟩
    rcases mem_run_opt.mp hm with hm | ⟨rfl, rfl⟩
    · exact .inl ⟨c₁, m, c₂, hm, hv, rfl⟩
    · rw [hgroups]
      exact .inr hv
  · rintro (⟨c₁, m, c₂, hm, hv, rfl⟩ | hv)
    · exact ⟨c₁, m, c₂, mem_run_opt.mpr (.inl hm), hv, rfl⟩
    · exact ⟨[], s, c, mem_run_opt.mpr (.inr ⟨by rw [hgroups]; rfl, rfl⟩), hv, rfl⟩

theorem mem_run_lazy_seq : (c, v) ∈ run (seq (lazy p) b) s ↔
    ∃ u m, s = u ++ m ∧ (∀ x ∈ u, p x = true) ∧ (c, v) ∈ run b m := by
  simp only [mem_run_seq, mem_run_lazy, ← mem_run_many_seq]
  simp only [mem_run_many]

theorem mem_run_capture_lazy_seq : (c, v) ∈ run (seq (capture (lazy p)) b) s ↔
    ∃ u m c', s = u ++ m ∧ (∀ x ∈ u, p x = true) ∧ (c', v) ∈ run b m ∧ c = u :: c' := by
  rw [← mem_run_capture_many_seq]
  simp only [mem_run_seq, mem_run_capture, mem_run_lazy, mem_run_many]

theorem mem_run_stop_seq : (c, v) ∈ run (seq (stop p) b) s ↔ (∀ x ∈ s.head?, p x = false) ∧ (c, v) ∈ run b s := by
  rw [mem_run_seq]
  constructor
  · rintro ⟨c₁, m, c₂, hm, hv, rfl⟩
    obtain ⟨rfl, rfl, hs⟩ := mem_run_stop.mp hm
    exact ⟨hs, hv⟩
  · rintro ⟨hs, hv⟩
    exact ⟨[], s, c, mem_run_stop.mpr ⟨rfl, rfl, hs⟩, hv, rfl⟩

theorem mem_run_star_seq {greedy : Bool} : (c, v) ∈ run (seq (star greedy a) b) s ↔
    (c, v) ∈ run b s ∨ ∃ c' m, (c', m) ∈ run a s ∧ m.length < s.length ∧ (c, v) ∈ run (seq (star greedy a) b) m := by
  have hstar (s m : List Char) (c : List (List Char)) : (c, m) ∈ run (star greedy a) s ↔
      c = [] ∧ m ∈ runStar greedy (fun t => (run a t).map (·.2)) s.length s := by
    rw [run_star, List.mem_map]
    constructor
    · rintro ⟨m', hm, h⟩
      obtain ⟨rfl, rfl⟩ := Prod.mk.inj h
      exact ⟨rfl, hm⟩
    · rintro ⟨rfl, hm⟩
      exact ⟨m, hm, rfl⟩
  simp only [mem_run_seq, hstar]
  constructor
  · rintro ⟨c₁, m, c₂, ⟨rfl, hm⟩, hv, rfl⟩
    rcases (mem_runStar (Nat.le_refl _)).mp hm with rfl | ⟨t, ht, hlt, hm⟩
    · exact .inl hv
    · obtain ⟨⟨c', t'⟩, ht', rfl⟩ := List.mem_map.mp ht
      exact .inr ⟨c', t', ht', hlt, [], m, _, ⟨rfl, hm⟩, hv, rfl⟩
  · rintro (hv | ⟨c', t, ht, hlt, _, m, _, ⟨rfl, hm⟩, hv, rfl⟩)
    · exact ⟨[], s, c, ⟨rfl, (mem_runStar (Nat.le_refl _)).mpr (.inl rfl)⟩, hv, rfl⟩
    · refine ⟨[], m, _, ⟨rfl, (mem_runStar (Nat.le_refl _)).mpr (.inr ⟨t, ?_, hlt, hm⟩)⟩, hv, rfl⟩
      exact List.mem_map.mpr ⟨(c', t), ht, rfl⟩

theorem mem_run_set_seq : (c, v) ∈ run (seq (set p) b) s ↔ ∃ x m, p x = true ∧ s = x :: m ∧ (c, v) ∈ run b m := by
  rw [mem_run_seq]
  constructor
  · rintro ⟨c₁, m, c₂, hm, hv, rfl⟩
    obtain ⟨rfl, x, hx, rfl⟩ := mem_run_set.mp hm
    exact ⟨x, m, hx, rfl, hv⟩
  · rintro ⟨x, m, hx, rfl, hv⟩
    exact ⟨[], m, c, mem_run_set.mpr ⟨rfl, x, hx, rfl⟩, hv, rfl⟩

end mem

/-! ## What comes first -/

section first
variable {p : Char → Bool} {a k r : Rx} {s v : List Char} {c : List (List Char)}

theorem pairwise_runMany (p : Char → Bool) (s : List Char) :
    (runMany p s).Pairwise fun v w => v.length < w.length := by
  induction s with
  | nil => exact List.pairwise_singleton _ _
  | cons x s ih =>
    rw [runMany]
    split
    · rw [List.pairwise_append]
      refine ⟨ih, List.pairwise_singleton _ _, ?_⟩
      intro v hv w hw
      obtain ⟨u, rfl, -⟩ := mem_runMany.mp hv
      rw [List.mem_singleton.mp hw, List.length_cons, List.length_append]
      omega
    · exact List.pairwise_singleton _ _

theorem head?_run_seq (h : (run (seq a k) s).head? = some (c, v)) :
    ∃ c₁ m c₂, (c₁, m) ∈ run a s ∧ (run k m).head? = some (c₂, v) ∧ c = c₁ ++ c₂ := by
  rw [run_seq, List.head?_flatMap, List.findSome?_eq_some_iff] at h
  obtain ⟨l₁, ⟨c₁, m⟩, l₂, hl, hhead, -⟩ := h
  rw [List.head?_map, Option.map_eq_some_iff] at hhead
  obtain ⟨⟨c₂, v'⟩, hhead, h⟩ := hhead
  obtain ⟨rfl, rfl⟩ := Prod.mk.inj h
  exact ⟨c₁, m, c₂, hl ▸ List.mem_append_right _ List.mem_cons_self, hhead, rfl⟩

theorem head?_run_lit_seq {text : List Char} (h : (run (seq (lit text) k) s).head? = some (c, v)) :
    ∃ m, s = text ++ m ∧ (run k m).head? = some (c, v) := by
  obtain ⟨c₁, m, c₂, hlit, hhead, rfl⟩ := head?_run_seq h
  obtain ⟨rfl, rfl⟩ := mem_run_lit.mp hlit
  exact ⟨m, rfl, hhead⟩

/-- A repeated group takes the longest text after which the pattern goes on. -/
theorem head?_run_many (h : (run (seq (capture (many p)) k) s).head? = some (c, v)) :
    ∃ u m c', s = u ++ m ∧ (∀ x ∈ u, p x = true) ∧ (c', v) ∈ run k m ∧ c = u :: c' ∧
      ∀ u' m', s = u' ++ m' → (∀ x ∈ u', p x = true) → run k m' ≠ [] → u'.length ≤ u.length := by
  have hgroup : run (capture (many p)) s = (runMany p s).map fun v => ([s.take (s.length - v.length)], v) := by
    rw [run_capture, run_many, List.map_map]
    rfl
  rw [run_seq, hgroup, List.flatMap_map, List.head?_flatMap, List.findSome?_eq_some_iff] at h
  obtain ⟨l₁, m, l₂, hl, hhead, hnone⟩ := h
  rw [List.head?_map, Option.map_eq_some_iff] at hhead
  obtain ⟨⟨c', v'⟩, hhead, h⟩ := hhead
  obtain ⟨rfl, rfl⟩ := Prod.mk.inj h
  obtain ⟨u, rfl, hu⟩ := mem_runMany.mp (hl ▸ List.mem_append_right _ List.mem_cons_self)
  refine ⟨u, m, c', rfl, hu, List.mem_of_head? hhead, ?_, ?_⟩
  · rw [List.length_append, Nat.add_sub_cancel, List.take_left]
    rfl
  · intro u' m' hs hu' hne
    have hmem : m' ∈ l₁ ++ m :: l₂ := hl ▸ mem_runMany.mpr ⟨u', hs, hu'⟩
    have hlength : m.length ≤ m'.length := by
      rcases List.mem_append.mp hmem with hm | hm
      · have hnil := hnone m' hm
        rw [List.head?_map, Option.map_eq_none_iff, List.head?_eq_none_iff] at hnil
        exact absurd hnil hne
      · have hpairwise := (List.pairwise_append.mp (hl ▸ pairwise_runMany p (u ++ m))).2.1
        rcases List.mem_cons.mp hm with rfl | hm
        · exact Nat.le_refl _
        · exact Nat.le_of_lt ((List.pairwise_cons.mp hpairwise).1 m' hm)
    have htotal := congrArg List.length hs
    rw [List.length_append, List.length_append] at htotal
    omega

theorem matchHead_eq_none : r.matchHead s = none ↔ run r s = [] := by
  rw [matchHead, Option.map_eq_none_iff, List.head?_eq_none_iff]

theorem find_eq_none : r.find s = none ↔ ∀ pre t, s = pre ++ t → run r t = [] := by
  induction s with
  | nil =>
    rw [find, matchHead_eq_none]
    constructor
    · intro h pre t ht
      rw [(List.append_eq_nil_iff.mp ht.symm).2]
      exact h
    · exact fun h => h [] [] rfl
  | cons x s ih =>
    rw [find, Option.or_eq_none_iff, matchHead_eq_none, ih]
    constructor
    · rintro ⟨hx, hs⟩ pre t ht
      cases pre with
      | nil =>
        rw [List.nil_append] at ht
        rwa [← ht]
      | cons y pre => exact hs pre t (List.cons.inj ht).2
    · intro h
      refine ⟨h [] _ rfl, ?_⟩
      rintro pre t rfl
      exact h (x :: pre) t rfl

theorem find_eq_some {m : List (List Char)} (h : r.find s = some m) :
    ∃ pre t c v whole, s = pre ++ t ∧ (run r t).head? = some (c, v) ∧ m = whole :: c ∧
      ∀ pre' t', s = pre' ++ t' → run r t' ≠ [] → pre.length ≤ pre'.length := by
  induction s with
  | nil =>
    rw [find, matchHead, Option.map_eq_some_iff] at h
    obtain ⟨⟨c, v⟩, hhead, rfl⟩ := h
    exact ⟨[], [], c, v, _, rfl, hhead, rfl, fun _ _ _ _ => Nat.zero_le _⟩
  | cons x s ih =>
    rw [find, Option.or_eq_some_iff] at h
    rcases h with h | ⟨hnone, h⟩
    · rw [matchHead, Option.map_eq_some_iff] at h
      obtain ⟨⟨c, v⟩, hhead, rfl⟩ := h
      exact ⟨[], x :: s, c, v, _, rfl, hhead, rfl, fun _ _ _ _ => Nat.zero_le _⟩
    · obtain ⟨pre, t, c, v, whole, rfl, hhead, hm, hfirst⟩ := ih h
      refine ⟨x :: pre, t, c, v, whole, rfl, hhead, hm, ?_⟩
      intro pre' t' ht hne
      cases pre' with
      | nil =>
        rw [List.nil_append] at ht
        rw [← ht] at hne
        exact absurd (matchHead_eq_none.mp hnone) hne
      | cons y pre' => exact Nat.succ_le_succ (hfirst pre' t' (List.cons.inj ht).2 hne)

theorem find_of_run_ne_nil (h : run r s ≠ []) :
    ∃ c v whole, (run r s).head? = some (c, v) ∧ r.find s = some (whole :: c) := by
  obtain ⟨⟨c, v⟩, hhead⟩ := Option.isSome_iff_exists.mp (List.isSome_head?.mpr h)
  have hmatch : r.matchHead s = some (s.take (s.length - v.length) :: c) := by
    rw [matchHead, hhead, Option.map_some]
  refine ⟨c, v, s.take (s.length - v.length), hhead, ?_⟩
  cases s with
  | nil => exact hmatch
  | cons x s => rw [find, hmatch, Option.some_or]

theorem find_append {q : List Char} (h : ∀ q₁ q₂, q = q₁ ++ q₂ → q₂ ≠ [] → run r (q₂ ++ s) = []) :
    r.find (q ++ s) = r.find s := by
  induction q with
  | nil => rfl
  | cons x q ih =>
    have hx : r.matchHead (x :: (q ++ s)) = none := matchHead_eq_none.mpr (h [] (x :: q) rfl (List.cons_ne_nil _ _))
    rw [List.cons_append, find, hx, Option.none_or]
    refine ih ?_
    rintro q₁ q₂ rfl hne
    exact h (x :: q₁) q₂ rfl hne

end first

end Rx

end Obliguard

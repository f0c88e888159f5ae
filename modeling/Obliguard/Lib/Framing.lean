import Mathlib.Tactic.Common

/-!
# Frames in a stream

A decoder takes one frame off the front of a stream, and none when the stream does not hold a whole
one. `takeFrames` calls it a number of times, `drain` as often as it gives a frame. Where a decoder is
a `Framing`, what is drained depends on the stream only, not on the pieces in which it arrives
(`foldl_feed`); where it undoes an encoder, it gives back what was written (`takeFrames_flatMap`,
`drain_flatMap`).
-/

namespace Obliguard.Framing

variable {β α ι : Type}

/-- A frame takes something off the stream, and what comes after it does not change it. -/
structure IsFraming (dec : List β → Option (α × List β)) : Prop where
  shorter : ∀ {s r : List β} {a : α}, dec s = some (a, r) → r.length < s.length
  append : ∀ {s r : List β} {a : α} (t : List β), dec s = some (a, r) → dec (s ++ t) = some (a, r ++ t)

/-- The first frames of a stream. -/
def takeFrames (dec : List β → Option (α × List β)) : Nat → List β → Option (List α × List β)
  | 0, s => some ([], s)
  | n + 1, s => (dec s).bind fun (a, r) => (takeFrames dec n r).map fun (as, r') => (a :: as, r')

/-- The frames of a stream, `fuel` of them at most, and what is left. -/
def drainWith (dec : List β → Option (α × List β)) : Nat → List β → List α × List β
  | 0, s => ([], s)
  | fuel + 1, s =>
    match dec s with
    | none => ([], s)
    | some (a, r) => (a :: (drainWith dec fuel r).1, (drainWith dec fuel r).2)

/-- All the frames of a stream: there are no more than it has elements. -/
def drain (dec : List β → Option (α × List β)) (s : List β) : List α × List β :=
  drainWith dec s.length s

/-- A reader with a buffer gets one more piece. -/
def feed (dec : List β → Option (α × List β)) (st : List α × List β) (piece : List β) :
    List α × List β :=
  (st.1 ++ (drain dec (st.2 ++ piece)).1, (drain dec (st.2 ++ piece)).2)

/-! ## Written frames -/

section written
variable {dec : List β → Option (α × List β)} {enc : ι → List β} {f : ι → α} {xs : List ι}

/-- Reading as many frames as were written gives them back. -/
theorem takeFrames_flatMap (h : ∀ x ∈ xs, ∀ t, dec (enc x ++ t) = some (f x, t)) (t : List β) :
    takeFrames dec xs.length (xs.flatMap enc ++ t) = some (xs.map f, t) := by
  induction xs with
  | nil => rfl
  | cons x xs ih =>
    obtain ⟨hx, hxs⟩ := List.forall_mem_cons.mp h
    rw [List.flatMap_cons, List.append_assoc, List.length_cons, takeFrames, hx, Option.bind_some]
    dsimp only
    rw [ih hxs]
    rfl

end written

/-! ## Draining -/

section drain
variable {dec : List β → Option (α × List β)} {s r : List β} {a : α}

theorem drainWith_succ (fuel : Nat) : drainWith dec (fuel + 1) s =
    match dec s with
    | none => ([], s)
    | some (a, r) => (a :: (drainWith dec fuel r).1, (drainWith dec fuel r).2) := rfl

theorem drainWith_congr (hdec : IsFraming dec) {fuel fuel' : Nat} (h : s.length ≤ fuel)
    (h' : s.length ≤ fuel') : drainWith dec fuel s = drainWith dec fuel' s := by
  induction fuel generalizing fuel' s with
  | zero =>
    have hnone : dec s = none := by
      rw [Option.eq_none_iff_forall_ne_some]
      rintro ⟨a, r⟩ hs
      have hlt := hdec.shorter hs
      omega
    cases fuel' with
    | zero => rfl
    | succ fuel' => rw [drainWith_succ, hnone, drainWith]
  | succ fuel ih =>
    cases hs : dec s with
    | none =>
      cases fuel' with
      | zero => rw [drainWith_succ, hs, drainWith]
      | succ fuel' => rw [drainWith_succ, drainWith_succ, hs]
    | some p =>
      have hlt : p.2.length < s.length := hdec.shorter hs
      cases fuel' with
      | zero => omega
      | succ fuel' =>
        rw [drainWith_succ, drainWith_succ, hs]
        dsimp only
        rw [@ih _ fuel' (by omega) (by omega)]

theorem drain_none (h : dec s = none) : drain dec s = ([], s) := by
  cases hlen : s.length with
  | zero => rw [drain, hlen, drainWith]
  | succ n => rw [drain, hlen, drainWith_succ, h]

theorem drain_some (hdec : IsFraming dec) (h : dec s = some (a, r)) :
    drain dec s = (a :: (drain dec r).1, (drain dec r).2) := by
  have hlt := hdec.shorter h
  obtain ⟨n, hn⟩ : ∃ n, s.length = n + 1 := ⟨s.length - 1, by omega⟩
  rw [drain, hn, drainWith_succ, h]
  dsimp only
  rw [@drainWith_congr _ _ dec r hdec n r.length (by omega) (Nat.le_refl _)]
  rfl

theorem drain_rest (hdec : IsFraming dec) (s : List β) : dec (drain dec s).2 = none := by
  induction hlen : s.length using Nat.strongRecOn generalizing s with
  | ind n ih =>
    cases hs : dec s with
    | none => rwa [drain_none hs]
    | some p =>
      obtain ⟨a, r⟩ := p
      rw [drain_some hdec hs]
      exact ih r.length (hlen ▸ hdec.shorter hs) r rfl

theorem drain_append (hdec : IsFraming dec) (s t : List β) :
    drain dec (s ++ t) = ((drain dec s).1 ++ (drain dec ((drain dec s).2 ++ t)).1,
      (drain dec ((drain dec s).2 ++ t)).2) := by
  induction hlen : s.length using Nat.strongRecOn generalizing s with
  | ind n ih =>
    cases hs : dec s with
    | none =>
      rw [drain_none hs]
      rfl
    | some p =>
      obtain ⟨a, r⟩ := p
      rw [drain_some hdec hs, drain_some hdec (hdec.append t hs),
        ih r.length (hlen ▸ hdec.shorter hs) r rfl]
      rfl

/-- What a reader has taken out after some pieces is what their concatenation drains to. -/
theorem foldl_feed (hdec : IsFraming dec) (as : List α) {s : List β} (hs : dec s = none)
    (pieces : List (List β)) : pieces.foldl (feed dec) (as, s) =
      (as ++ (drain dec (s ++ pieces.flatten)).1, (drain dec (s ++ pieces.flatten)).2) := by
  induction pieces generalizing as s with
  | nil => rw [List.flatten_nil, List.append_nil, drain_none hs, List.append_nil, List.foldl_nil]
  | cons piece pieces ih =>
    rw [List.foldl_cons, feed, ih _ (drain_rest hdec _), List.flatten_cons, ← List.append_assoc s,
      drain_append hdec (s ++ piece), List.append_assoc]

/-- Draining gives back what was written. -/
theorem drain_flatMap {enc : ι → List β} {f : ι → α} {xs : List ι} (hdec : IsFraming dec)
    (h : ∀ x ∈ xs, ∀ t, dec (enc x ++ t) = some (f x, t)) (t : List β) :
    drain dec (xs.flatMap enc ++ t) = (xs.map f ++ (drain dec t).1, (drain dec t).2) := by
  induction xs with
  | nil => rfl
  | cons x xs ih =>
    obtain ⟨hx, hxs⟩ := List.forall_mem_cons.mp h
    rw [List.flatMap_cons, List.append_assoc, drain_some hdec (hx _), ih hxs]
    rfl

theorem drain_of_append {enc : α → List β} {xs : List α} (hdec : IsFraming dec)
    (h : ∀ x ∈ xs, ∀ t, dec (enc x ++ t) = some (x, t)) {t : List β} (hst : s ++ t = xs.flatMap enc) :
    ∃ ys zs, xs = ys ++ zs ∧ (drain dec s).1 = ys ∧ (drain dec s).2 ++ t = zs.flatMap enc := by
  induction xs generalizing s with
  | nil =>
    have hnil : s = [] := (List.append_eq_nil_iff.mp hst).1
    exact ⟨[], [], rfl, by rw [hnil]; rfl, by rw [hnil] at hst ⊢; exact hst⟩
  | cons x xs ih =>
    obtain ⟨hx, hxs⟩ := List.forall_mem_cons.mp h
    cases hs : dec s with
    | none => exact ⟨[], x :: xs, rfl, by rw [drain_none hs], by rw [drain_none hs]; exact hst⟩
    | some p =>
      obtain ⟨a, r⟩ := p
      -- the frame read off the start is the one that was written first
      have hwhole := hdec.append t hs
      rw [hst, List.flatMap_cons, hx] at hwhole
      obtain ⟨rfl, hr⟩ := Prod.mk.inj (Option.some.inj hwhole)
      obtain ⟨ys, zs, hsplit, hys, hzs⟩ := ih hxs hr.symm
      rw [drain_some hdec hs]
      exact ⟨x :: ys, zs, by rw [hsplit]; rfl, by rw [hys], hzs⟩

end drain

end Obliguard.Framing

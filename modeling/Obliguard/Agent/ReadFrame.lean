import Obliguard.Agent.WebSocket

/-!
# Allocations of `ReadFrame`

`ReadFrame` of `agent/websocket.go` with what `readFrame` leaves out: the payload is allocated by `make` before any of
it is read, and `make` panics on a length above the largest one of a slice. `readFrame_panics_iff` says which streams
panic, `readCalls_panic_iff` what that means for the calls of `readLoop` one after the other.
-/

namespace Obliguard.Agent

open Bytes Framing

/-- What a call of `ReadFrame` comes to, with what is left of the stream. -/
inductive ReadOutcome
  | frame (opcode : UInt8) (payload rest : List UInt8)
  | error
  | panic
deriving DecidableEq

/-- `ReadFrame`, where `maxSliceLen` is the largest length of a byte slice. -/
def readFrameAlloc (maxSliceLen : Nat) : List UInt8 → ReadOutcome
  | [] => .error
  | [_] => .error
  | h0 :: h1 :: r =>
    match readPayLen h1 r with
    | none => .error
    | some (payLen, r) =>
      match readMaskKey ((h1 &&& 0x80) != 0) r with
      | none => .error
      | some (maskKey, r) =>
        if payLen > 0 then
          -- `make([]byte, payLen)`
          if payLen > maxSliceLen then .panic
          else
            match readFull payLen r with
            | none => .error
            | some (payload, r) => .frame (h0 &&& 0x0f) ((maskKey.map (·.apply payload)).getD payload) r
        else .frame (h0 &&& 0x0f) [] r

/-- The calls of `readLoop` on a stream, `n` of them at most: an error ends the session. -/
def readCalls (maxSliceLen : Nat) : Nat → List UInt8 → List ReadOutcome
  | 0, _ => []
  | n + 1, s =>
    match readFrameAlloc maxSliceLen s with
    | .frame opcode payload rest => .frame opcode payload rest :: readCalls maxSliceLen n rest
    | outcome => [outcome]

/-- The stream starts with a whole header, mask key included, whose 64-bit length is above the largest length. -/
def OversizedHeader (maxSliceLen : Nat) (s : List UInt8) : Prop :=
  ∃ h0 h1 l key rest, s = h0 :: h1 :: (l ++ (key ++ rest)) ∧ h1 &&& 0x7f = 127 ∧ l.length = 8 ∧
    key.length = (if (h1 &&& 0x80) != 0 then 4 else 0) ∧ maxSliceLen < beValue l

section alloc
variable {maxSliceLen : Nat} {s : List UInt8}

/-! ## The parts of a header -/

theorem readFull_eq_some {n : Nat} {r l t : List UInt8} : readFull n r = some (l, t) ↔ l.length = n ∧ r = l ++ t := by
  constructor
  · intro h
    rw [readFull] at h
    split at h
    · contradiction
    · rename_i hlen
      obtain ⟨rfl, rfl⟩ := Prod.mk.inj (Option.some.inj h)
      refine ⟨?_, (List.take_append_drop n r).symm⟩
      rw [List.length_take]
      omega
  · rintro ⟨hlen, rfl⟩
    exact readFull_append hlen t

theorem readMaskKey_isSome {masked : Bool} {r : List UInt8} : (∃ key t, readMaskKey masked r = some (key, t)) ↔
    ∃ key t, key.length = (if masked then 4 else 0) ∧ r = key ++ t := by
  cases masked with
  | false => exact iff_of_true ⟨none, r, rfl⟩ ⟨[], r, rfl, rfl⟩
  | true =>
    rw [readMaskKey, if_pos rfl, if_pos rfl]
    constructor
    · rintro ⟨key, t, h⟩
      split at h
      · contradiction
      · rename_i hlen
        refine ⟨r.take 4, r.drop 4, ?_, (List.take_append_drop 4 r).symm⟩
        rw [List.length_take]
        omega
    · rintro ⟨key, t, hlen, rfl⟩
      have hlong : ¬ (key ++ t).length < 4 := by
        rw [List.length_append]
        omega
      rw [dif_neg hlong]
      exact ⟨_, _, rfl⟩

theorem readPayLen_big {h1 : UInt8} {r t : List UInt8} {payLen : Nat} (hbig : 65535 < payLen) :
    readPayLen h1 r = some (payLen, t) ↔ h1 &&& 0x7f = 127 ∧ ∃ l, l.length = 8 ∧ r = l ++ t ∧ payLen = beValue l := by
  rw [readPayLen]
  dsimp only
  by_cases h126 : h1 &&& 0x7f = 126
  · rw [if_pos h126]
    refine iff_of_false ?_ ?_
    · intro h
      obtain ⟨⟨l, t'⟩, hl, hval⟩ := Option.map_eq_some_iff.mp h
      obtain ⟨hlen, -⟩ := readFull_eq_some.mp hl
      have hpayLen : beValue l = payLen := (Prod.mk.inj hval).1
      have hlt := beValue_lt l
      rw [hlen, hpayLen] at hlt
      omega
    · rintro ⟨h127, -⟩
      rw [h126] at h127
      contradiction
  · rw [if_neg h126]
    by_cases h127 : h1 &&& 0x7f = 127
    · rw [if_pos h127]
      constructor
      · intro h
        obtain ⟨⟨l, t'⟩, hl, hval⟩ := Option.map_eq_some_iff.mp h
        obtain ⟨hlen, hr⟩ := readFull_eq_some.mp hl
        obtain ⟨rfl, rfl⟩ := Prod.mk.inj hval
        exact ⟨h127, l, hlen, hr, rfl⟩
      · rintro ⟨-, l, hlen, rfl, rfl⟩
        rw [readFull_append hlen, Option.map_some]
    · rw [if_neg h127]
      refine iff_of_false ?_ fun h => h127 h.1
      intro h
      obtain ⟨rfl, -⟩ := Prod.mk.inj (Option.some.inj h)
      have := (h1 &&& 0x7f).toNat_lt
      omega

/-! ## One call -/

theorem readFrameAlloc_cons (h0 h1 : UInt8) (r : List UInt8) : readFrameAlloc maxSliceLen (h0 :: h1 :: r) =
    match readPayLen h1 r with
    | none => .error
    | some (payLen, r) =>
      match readMaskKey ((h1 &&& 0x80) != 0) r with
      | none => .error
      | some (maskKey, r) =>
        if payLen > 0 then
          if payLen > maxSliceLen then .panic
          else
            match readFull payLen r with
            | none => .error
            | some (payload, r) => .frame (h0 &&& 0x0f) ((maskKey.map (·.apply payload)).getD payload) r
        else .frame (h0 &&& 0x0f) [] r := rfl

theorem readFrameAlloc_eq_panic : readFrameAlloc maxSliceLen s = .panic ↔ ∃ h0 h1 r payLen t maskKey t',
    s = h0 :: h1 :: r ∧ readPayLen h1 r = some (payLen, t) ∧ readMaskKey ((h1 &&& 0x80) != 0) t = some (maskKey, t') ∧
      maxSliceLen < payLen := by
  constructor
  · intro h
    rcases s with _ | ⟨h0, _ | ⟨h1, r⟩⟩
    · contradiction
    · contradiction
    rw [readFrameAlloc_cons] at h
    split at h
    · contradiction
    · rename_i payLen t hlen
      split at h
      · contradiction
      · rename_i maskKey t' hkey
        split at h
        · split at h
          · rename_i hbig
            exact ⟨h0, h1, r, payLen, t, maskKey, t', rfl, hlen, hkey, hbig⟩
          · split at h
            · contradiction
            · contradiction
        · contradiction
  · rintro ⟨h0, h1, r, payLen, t, maskKey, t', rfl, hlen, hkey, hbig⟩
    rw [readFrameAlloc_cons, hlen]
    dsimp only
    rw [hkey]
    dsimp only
    rw [if_pos (Nat.zero_lt_of_lt hbig), if_pos hbig]

theorem readFrameAlloc_panic_iff (hmax : 65535 ≤ maxSliceLen) :
    readFrameAlloc maxSliceLen s = .panic ↔ OversizedHeader maxSliceLen s := by
  rw [readFrameAlloc_eq_panic]
  constructor
  · rintro ⟨h0, h1, r, payLen, t, maskKey, t', rfl, hlen, hkey, hbig⟩
    obtain ⟨h127, l, hl, rfl, rfl⟩ := (readPayLen_big (by omega)).mp hlen
    obtain ⟨key, rest, hkeyLen, rfl⟩ := readMaskKey_isSome.mp ⟨maskKey, t', hkey⟩
    exact ⟨h0, h1, l, key, rest, rfl, h127, hl, hkeyLen, hbig⟩
  · rintro ⟨h0, h1, l, key, rest, rfl, h127, hl, hkeyLen, hbig⟩
    obtain ⟨maskKey, t', hkey⟩ := readMaskKey_isSome.mpr ⟨key, rest, hkeyLen, rfl⟩
    exact ⟨h0, h1, l ++ (key ++ rest), beValue l, key ++ rest, maskKey, t', rfl,
      (readPayLen_big (by omega)).mpr ⟨h127, l, hl, rfl, rfl⟩, hkey, hbig⟩

theorem readFrameAlloc_of_not_panic (h : readFrameAlloc maxSliceLen s ≠ .panic) : readFrameAlloc maxSliceLen s =
    match readFrame s with
    | some ((opcode, payload), rest) => .frame opcode payload rest
    | none => .error := by
  rcases s with _ | ⟨h0, _ | ⟨h1, r⟩⟩
  · rfl
  · rfl
  rw [readFrameAlloc_cons] at h ⊢
  rw [readFrame]
  cases hlen : readPayLen h1 r with
  | none => rfl
  | some p =>
    obtain ⟨payLen, t⟩ := p
    rw [hlen] at h
    dsimp only at h ⊢
    rw [Option.bind_some]
    cases hkey : readMaskKey ((h1 &&& 0x80) != 0) t with
    | none => rfl
    | some k =>
      obtain ⟨maskKey, t'⟩ := k
      rw [hkey] at h
      dsimp only at h ⊢
      rw [Option.bind_some]
      dsimp only
      split
      · rename_i hpos
        rw [if_pos hpos] at h
        split
        · rename_i hbig
          rw [if_pos hbig] at h
          exact absurd rfl h
        · cases hfull : readFull payLen t' with
          | none => rfl
          | some q => cases maskKey <;> rfl
      · -- no payload: nothing is read after the header
        rename_i hpos
        obtain rfl : payLen = 0 := by omega
        rw [readFull, if_neg (Nat.not_lt_zero _), Option.map_some]
        cases maskKey <;> rfl

end alloc

/-! ## The calls one after the other -/

/-- With slices of 65535 bytes or more, the calls on a stream never panic exactly when none of them comes to an
oversized header: not at the start, and not after any number of whole frames. -/
theorem readCalls_panic_iff (maxSliceLen : Nat) (hmax : 65535 ≤ maxSliceLen) (stream : List UInt8) :
    (∀ n, ReadOutcome.panic ∉ readCalls maxSliceLen n stream) ↔
      ∀ n frames rest, takeFrames readFrame n stream = some (frames, rest) → ¬ OversizedHeader maxSliceLen rest := by
  constructor
  · intro hcalls n frames rest hframes hover
    induction n generalizing stream frames with
    | zero =>
      obtain ⟨-, rfl⟩ := Prod.mk.inj (Option.some.inj hframes)
      refine hcalls 1 ?_
      rw [readCalls, (readFrameAlloc_panic_iff hmax).mpr hover]
      exact List.mem_singleton_self _
    | succ n ih =>
      rw [takeFrames] at hframes
      obtain ⟨⟨frame, r⟩, hread, hmap⟩ := Option.bind_eq_some_iff.mp hframes
      obtain ⟨⟨frames', rest'⟩, hrest, heq⟩ := Option.map_eq_some_iff.mp hmap
      obtain ⟨-, rfl⟩ := Prod.mk.inj heq
      have hfirst : readFrameAlloc maxSliceLen stream ≠ .panic := by
        intro hpanic
        refine hcalls 1 ?_
        rw [readCalls, hpanic]
        exact List.mem_singleton_self _
      have hout := readFrameAlloc_of_not_panic hfirst
      rw [hread] at hout
      refine ih r (fun m hm => hcalls (m + 1) ?_) _ hrest
      rw [readCalls, hout]
      exact List.mem_cons_of_mem _ hm
  · intro hheaders n
    induction n generalizing stream with
    | zero => exact List.not_mem_nil
    | succ n ih =>
      have hfirst : readFrameAlloc maxSliceLen stream ≠ .panic := fun hpanic =>
        hheaders 0 [] stream rfl ((readFrameAlloc_panic_iff hmax).mp hpanic)
      rw [readCalls, readFrameAlloc_of_not_panic hfirst]
      cases hread : readFrame stream with
      | none => simp
      | some p =>
        obtain ⟨⟨opcode, payload⟩, rest⟩ := p
        have hrest : ∀ m frames rest', takeFrames readFrame m rest = some (frames, rest') →
            ¬ OversizedHeader maxSliceLen rest' := by
          intro m frames rest' htake
          refine hheaders (m + 1) ((opcode, payload) :: frames) rest' ?_
          rw [takeFrames, hread, Option.bind_some]
          dsimp only
          rw [htake]
          rfl
        simpa using ih rest hrest

/-- The largest length of a byte slice on a 64-bit platform: 48 bits of address. -/
def maxAlloc64 : Nat := 2 ^ 48

/-- A whole ping, and a masked header that announces 2⁶⁴ - 1 bytes. -/
def hostileStream : List UInt8 := [0x89, 0, 0x82, 0xff] ++ List.replicate 8 0xff ++ [1, 2, 3, 4]

theorem readCalls_hostileStream : ¬ ∀ n, ReadOutcome.panic ∉ readCalls maxAlloc64 n hostileStream := by
  intro h
  exact (readCalls_panic_iff maxAlloc64 (by decide) hostileStream).mp h 1 [(9, [])] (hostileStream.drop 2) (by decide)
    ⟨0x82, 0xff, List.replicate 8 0xff, [1, 2, 3, 4], [], by decide, by decide, by decide, by decide, by decide⟩

/-- An unmasked frame that announces 2⁶⁴ - 1 bytes makes the first call panic. -/
theorem not_readCalls_total :
    ¬ ∀ stream n, ReadOutcome.panic ∉ readCalls maxAlloc64 n stream := by
  intro h
  exact h (0x82 :: 0x7f :: List.replicate 8 0xff) 1 (by decide)

end Obliguard.Agent

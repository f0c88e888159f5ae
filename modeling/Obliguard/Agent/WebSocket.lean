import Obliguard.Lib.Bytes
import Obliguard.Lib.Framing

/-!
# WebSocket frames of the agent

`WriteFrame` and `ReadFrame` of `agent/websocket.go`. The connection is the row of bytes written to it
and not read yet. `readFrame_writeFrame` reads one frame off it, and `frames_roundTrip` any number.
-/

namespace Obliguard.Agent

open Bytes Framing

/-- The key of a mask, `[4]byte`. -/
structure MaskKey where
  bytes : List UInt8
  length_eq : bytes.length = 4
deriving DecidableEq

/-- The payload with byte `i` combined with byte `i % 4` of the key. -/
def MaskKey.apply (key : MaskKey) (payload : List UInt8) : List UInt8 :=
  payload.mapIdx fun i b => b ^^^ key.bytes.getD (i % 4) 0

/-- The length field of a frame, with the bit of the mask, and its extension. -/
def lengthHeader (payLen : Nat) : List UInt8 :=
  if payLen ≤ 125 then [0x80 ||| UInt8.ofNat payLen]
  else if payLen ≤ 65535 then [0x80 ||| 126, UInt8.ofNat (payLen >>> 8), UInt8.ofNat payLen]
  else (0x80 ||| 127) :: [7, 6, 5, 4, 3, 2, 1, 0].map fun i => UInt8.ofNat (payLen >>> (i * 8))

/-- `WriteFrame`: the bytes written for a payload and the random key of its mask. -/
def writeFrame (opcode : UInt8) (payload : List UInt8) (key : MaskKey) : List UInt8 :=
  (0x80 ||| opcode) :: (lengthHeader payload.length ++ (key.bytes ++ key.apply payload))

/-- `io.ReadFull`: `n` bytes and what is left. -/
def readFull (n : Nat) (r : List UInt8) : Option (List UInt8 × List UInt8) :=
  if r.length < n then none else some (r.take n, r.drop n)

/-- The payload length that the second byte of a frame starts. -/
def readPayLen (h1 : UInt8) (r : List UInt8) : Option (Nat × List UInt8) :=
  let payLen := h1 &&& 0x7f
  if payLen = 126 then (readFull 2 r).map fun (l, r) => (beValue l, r)
  else if payLen = 127 then (readFull 8 r).map fun (l, r) => (beValue l, r)
  else some (payLen.toNat, r)

/-- The key of a masked frame. -/
def readMaskKey (masked : Bool) (r : List UInt8) : Option (Option MaskKey × List UInt8) :=
  if masked then
    if h : r.length < 4 then none
    else some (some ⟨r.take 4, by rw [List.length_take]; omega⟩, r.drop 4)
  else some (none, r)

/-- `ReadFrame`: the opcode and the payload of the next frame, `none` when the stream ends in it. -/
def readFrame : List UInt8 → Option ((UInt8 × List UInt8) × List UInt8)
  | [] => none
  | [_] => none
  | h0 :: h1 :: r =>
    let opcode := h0 &&& 0x0f
    let masked := (h1 &&& 0x80) != 0
    (readPayLen h1 r).bind fun (payLen, r) =>
    (readMaskKey masked r).bind fun (maskKey, r) =>
    (readFull payLen r).map fun (payload, r) =>
      ((opcode, match maskKey with
        | some key => key.apply payload
        | none => payload), r)

/-- The arguments of `WriteFrame`: an opcode of four bits, and a slice. -/
structure WsFrame where
  opcode : UInt8
  payload : List UInt8
  opcode_lt : opcode < 16
  /-- The length of a slice is an `int`. -/
  length_lt : payload.length < 2 ^ 63

/-! ## One frame -/

theorem MaskKey.apply_apply (key : MaskKey) (payload : List UInt8) :
    key.apply (key.apply payload) = payload := by
  apply List.ext_getElem
  · simp [MaskKey.apply]
  · intro i h _
    simp only [MaskKey.apply, List.getElem_mapIdx]
    rw [UInt8.xor_assoc, UInt8.xor_self, UInt8.xor_zero]

theorem MaskKey.length_apply (key : MaskKey) (payload : List UInt8) :
    (key.apply payload).length = payload.length := by
  simp [MaskKey.apply]

theorem readFull_append {n : Nat} {l : List UInt8} (h : l.length = n) (t : List UInt8) :
    readFull n (l ++ t) = some (l, t) := by
  have hlen : ¬ (l ++ t).length < n := by
    rw [List.length_append]
    omega
  rw [readFull, if_neg hlen, ← h, List.take_left, List.drop_left]

theorem readMaskKey_append (key : MaskKey) (t : List UInt8) :
    readMaskKey true (key.bytes ++ t) = some (some key, t) := by
  have hlen : ¬ (key.bytes ++ t).length < 4 := by
    rw [List.length_append, key.length_eq]
    omega
  have htake : (key.bytes ++ t).take 4 = key.bytes := by
    rw [← key.length_eq, List.take_left]
  have hdrop : (key.bytes ++ t).drop 4 = t := by
    rw [← key.length_eq, List.drop_left]
  rw [readMaskKey, if_pos rfl, dif_neg hlen, hdrop]
  simp only [htake]

theorem opcode_and {opcode : UInt8} (h : opcode < 16) : (0x80 ||| opcode) &&& 0x0f = opcode := by
  have hall : ∀ n < 16, (0x80 ||| UInt8.ofNat n) &&& 0x0f = UInt8.ofNat n := by decide
  have hn : opcode.toNat < 16 := UInt8.lt_iff_toNat_lt.mp h
  have hopcode := hall opcode.toNat hn
  rwa [UInt8.ofNat_toNat] at hopcode

theorem secondByte {n : Nat} (h : n < 128) : ((0x80 ||| UInt8.ofNat n) &&& 0x80 != 0) = true ∧
    (0x80 ||| UInt8.ofNat n) &&& 0x7f = UInt8.ofNat n := by
  have hall : ∀ n < 128, ((0x80 ||| UInt8.ofNat n) &&& 0x80 != 0) = true ∧
      (0x80 ||| UInt8.ofNat n) &&& 0x7f = UInt8.ofNat n := by decide
  exact hall n h

theorem ofNat_ne_extension {n : Nat} (h : n ≤ 125) : UInt8.ofNat n ≠ 126 ∧ UInt8.ofNat n ≠ 127 ∧
    (UInt8.ofNat n).toNat = n := by
  have hall : ∀ n < 126, UInt8.ofNat n ≠ 126 ∧ UInt8.ofNat n ≠ 127 ∧ (UInt8.ofNat n).toNat = n := by
    decide
  exact hall n (by omega)

theorem readPayLen_lengthHeader {n : Nat} (hn : n < 2 ^ 63) (t : List UInt8) :
    ∃ h1 ext, lengthHeader n = h1 :: ext ∧ (h1 &&& 0x80 != 0) = true ∧
      readPayLen h1 (ext ++ t) = some (n, t) := by
  unfold lengthHeader
  by_cases hshort : n ≤ 125
  · obtain ⟨hmask, hlow⟩ := secondByte (n := n) (by omega)
    obtain ⟨h126, h127, hval⟩ := ofNat_ne_extension hshort
    refine ⟨_, [], if_pos hshort, hmask, ?_⟩
    rw [readPayLen, hlow]
    dsimp only
    rw [if_neg h126, if_neg h127, hval, List.nil_append]
  · rw [if_neg hshort]
    by_cases hmedium : n ≤ 65535
    · have hbytes : [UInt8.ofNat (n >>> 8), UInt8.ofNat n] = beBytes 2 n := by
        rw [beBytes_succ, beBytes_succ]
        rfl
      refine ⟨0x80 ||| 126, beBytes 2 n, ?_, by decide, ?_⟩
      · rw [if_pos hmedium, hbytes]
      · rw [readPayLen, show (0x80 ||| 126 : UInt8) &&& 0x7f = 126 by decide]
        dsimp only
        rw [if_pos rfl, readFull_append (length_beBytes 2 n), Option.map_some]
        dsimp only
        rw [beValue_beBytes (by omega)]
    · have hbytes : ([7, 6, 5, 4, 3, 2, 1, 0].map fun i => UInt8.ofNat (n >>> (i * 8))) =
          beBytes 8 n := by
        simp only [beBytes_succ]
        rfl
      refine ⟨0x80 ||| 127, beBytes 8 n, ?_, by decide, ?_⟩
      · rw [if_neg hmedium, hbytes]
      · rw [readPayLen, show (0x80 ||| 127 : UInt8) &&& 0x7f = 127 by decide]
        dsimp only
        rw [if_neg (by decide), if_pos rfl, readFull_append (length_beBytes 8 n), Option.map_some]
        dsimp only
        rw [beValue_beBytes (by omega)]

/-- A written frame is read back, with what follows it left. -/
theorem readFrame_writeFrame (f : WsFrame) (key : MaskKey) (t : List UInt8) :
    readFrame (writeFrame f.opcode f.payload key ++ t) = some ((f.opcode, f.payload), t) := by
  obtain ⟨h1, ext, hheader, hmask, hlen⟩ := readPayLen_lengthHeader f.length_lt
    (key.bytes ++ (key.apply f.payload ++ t))
  have hstream : writeFrame f.opcode f.payload key ++ t =
      (0x80 ||| f.opcode) :: h1 :: (ext ++ (key.bytes ++ (key.apply f.payload ++ t))) := by
    rw [writeFrame, hheader]
    simp only [List.cons_append, List.append_assoc]
  rw [hstream, readFrame, hmask, hlen, Option.bind_some]
  dsimp only
  rw [readMaskKey_append, Option.bind_some]
  dsimp only
  rw [readFull_append (key.length_apply f.payload), Option.map_some]
  dsimp only
  rw [key.apply_apply, opcode_and f.opcode_lt]

/-- Frames written one after the other, each under a key of its own, are read back in their order, and
nothing is left. -/
theorem frames_roundTrip (frames : List (WsFrame × MaskKey)) :
    takeFrames readFrame frames.length
        (frames.flatMap fun (f, key) => writeFrame f.opcode f.payload key) =
      some (frames.map fun (f, _) => (f.opcode, f.payload), []) := by
  have hframe : ∀ p ∈ frames, ∀ t, readFrame (writeFrame p.1.opcode p.1.payload p.2 ++ t) =
      some ((p.1.opcode, p.1.payload), t) := fun p _ t => readFrame_writeFrame p.1 p.2 t
  have h := @takeFrames_flatMap _ _ _ readFrame
    (fun p : WsFrame × MaskKey => writeFrame p.1.opcode p.1.payload p.2)
    (fun p => (p.1.opcode, p.1.payload)) frames hframe []
  rwa [List.append_nil] at h

end Obliguard.Agent

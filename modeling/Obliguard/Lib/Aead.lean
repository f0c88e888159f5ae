import Mathlib.Data.List.Basic
import Mathlib.Tactic.Common

/-!
# Authenticated encryption

A cipher whose decryption under the key that encrypted gives the bytes back. That it refuses what another
key encrypted is stated of two keys, `Rejects`: no cipher with a tag of fixed length has it of all of them.
`counterMode` builds one from a key stream and a message authentication code, the way GCM does.
-/

namespace Obliguard

/-- An encrypted message and its authentication tag. -/
structure Sealed where
  enc : List UInt8
  tag : List UInt8
deriving DecidableEq

structure Aead (Key : Type) where
  encrypt : Key → List UInt8 → List UInt8 → Sealed
  decrypt : Key → List UInt8 → Sealed → Option (List UInt8)
  decrypt_encrypt : ∀ key iv p, decrypt key iv (encrypt key iv p) = some p
  length_enc : ∀ key iv p, (encrypt key iv p).enc.length = p.length
  length_tag : ∀ key iv p, (encrypt key iv p).tag.length = 16

namespace Aead

variable {Key : Type}

/-- Nothing encrypted under the first key decrypts under the second one. -/
def Rejects (a : Aead Key) (key key' : Key) : Prop := ∀ iv p, a.decrypt key' iv (a.encrypt key iv p) = none

theorem enc_eq_nil (a : Aead Key) {key : Key} {iv p : List UInt8} : (a.encrypt key iv p).enc = [] ↔ p = [] := by
  rw [← List.length_eq_zero_iff, a.length_enc, List.length_eq_zero_iff]

theorem tag_ne_nil (a : Aead Key) (key : Key) (iv p : List UInt8) : (a.encrypt key iv p).tag ≠ [] := by
  rw [← List.length_pos_iff, a.length_tag]
  exact Nat.succ_pos 15

/-! ## Counter mode -/

/-- Bytes under a key stream. -/
def mask (stream : Nat → UInt8) (bs : List UInt8) : List UInt8 := bs.mapIdx fun i b => b ^^^ stream i

theorem mask_mask (stream : Nat → UInt8) (bs : List UInt8) : mask stream (mask stream bs) = bs := by
  rw [mask, mask, List.mapIdx_mapIdx]
  have hxor : (fun (i : Nat) (b : UInt8) => b ^^^ stream i ^^^ stream i) = fun _ b => b := by
    funext i b
    rw [UInt8.xor_assoc, UInt8.xor_self, UInt8.xor_zero]
  refine List.ext_getElem? fun i => ?_
  rw [List.getElem?_mapIdx]
  cases bs[i]? with
  | none => rfl
  | some b => exact congrArg some (congrFun (congrFun hxor i) b)

/-- The message under a key stream, with a code of what came out. -/
def counterMode (stream : Key → List UInt8 → Nat → UInt8) (mac : Key → List UInt8 → List UInt8 → List UInt8)
    (hmac : ∀ key iv c, (mac key iv c).length = 16) : Aead Key where
  encrypt key iv p := ⟨mask (stream key iv) p, mac key iv (mask (stream key iv) p)⟩
  decrypt key iv s := if s.tag = mac key iv s.enc then some (mask (stream key iv) s.enc) else none
  decrypt_encrypt key iv p := by rw [if_pos rfl, mask_mask]
  length_enc _ _ _ := List.length_mapIdx
  length_tag key iv _ := hmac key iv _

theorem counterMode_rejects {stream : Key → List UInt8 → Nat → UInt8}
    {mac : Key → List UInt8 → List UInt8 → List UInt8} (hmac : ∀ key iv c, (mac key iv c).length = 16)
    {key key' : Key} (hne : ∀ iv c, mac key iv c ≠ mac key' iv c) :
    (counterMode stream mac hmac).Rejects key key' :=
  fun iv _ => if_neg (hne iv _)

end Aead

end Obliguard

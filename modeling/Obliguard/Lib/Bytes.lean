import Obliguard.Lib.Numeral

/-!
# Bytes

Numbers in bytes, the most significant one first, texts in UTF-8, and bytes in hexadecimal.
-/

namespace Obliguard.Bytes

open Numeral

/-- The `n` lowest bytes of `v`, the most significant one first. -/
def beBytes (n v : Nat) : List UInt8 := (toGroups 8 n v).map UInt8.ofNat

/-- The number of a row of bytes, the most significant one first. -/
def beValue (bs : List UInt8) : Nat := ofGroups 8 (bs.map UInt8.toNat)

@[simp] theorem length_beBytes (n v : Nat) : (beBytes n v).length = n := by
  rw [beBytes, List.length_map, length_toGroups]

theorem toNat_ofNat_of_lt {n : Nat} (h : n < 2 ^ 8) : (UInt8.ofNat n).toNat = n := by
  rw [UInt8.toNat_ofNat']
  omega

theorem beValue_beBytes {n v : Nat} (h : v < 2 ^ (8 * n)) : beValue (beBytes n v) = v := by
  have hbytes : ((toGroups 8 n v).map UInt8.ofNat).map UInt8.toNat = toGroups 8 n v := by
    rw [List.map_map]
    refine (List.map_congr_left fun g hg => ?_).trans (List.map_id _)
    exact toNat_ofNat_of_lt (toGroups_lt 8 n v g hg)
  rw [beValue, beBytes, hbytes, ofGroups_toGroups 8 n v h]

theorem beValue_lt (bs : List UInt8) : beValue bs < 2 ^ (8 * bs.length) := by
  have hlt := ofGroups_lt 8 (bs.map UInt8.toNat) fun g hg => by
    obtain ⟨b, -, rfl⟩ := List.mem_map.mp hg
    exact b.toNat_lt
  rwa [List.length_map] at hlt

theorem ofNat_mod_256 (n : Nat) : UInt8.ofNat (n % 2 ^ 8) = UInt8.ofNat n := UInt8.ofNat_mod_size

theorem beBytes_succ (n v : Nat) : beBytes (n + 1) v = UInt8.ofNat (v >>> (n * 8)) :: beBytes n v := by
  have hlast : ∀ k w, beBytes (k + 1) w = beBytes k (w / 2 ^ 8) ++ [UInt8.ofNat w] := by
    intro k w
    rw [beBytes, toGroups, List.map_append, List.map_singleton, ofNat_mod_256, ← beBytes]
  induction n generalizing v with
  | zero =>
    rw [hlast, Nat.zero_mul, Nat.shiftRight_zero]
    rfl
  | succ n ih =>
    rw [hlast (n + 1), ih, List.cons_append, ← hlast n, Nat.shiftRight_eq_div_pow,
      Nat.shiftRight_eq_div_pow, Nat.div_div_eq_div_mul, ← Nat.pow_add]
    rw [show 8 + n * 8 = (n + 1) * 8 by omega]

/-- The UTF-8 bytes of a text. -/
def utf8Bytes (s : String) : List UInt8 := s.toByteArray.data.toList

/-- The text of a row of bytes; `illFormed` says what is made of bytes that are not UTF-8. -/
def utf8Text (illFormed : List UInt8 → String) (bs : List UInt8) : String :=
  if h : (ByteArray.mk bs.toArray).IsValidUTF8 then String.ofByteArray _ h else illFormed bs

theorem length_utf8Bytes (s : String) : (utf8Bytes s).length = s.utf8ByteSize := rfl

theorem utf8Text_utf8Bytes (illFormed : List UInt8 → String) (s : String) :
    utf8Text illFormed (utf8Bytes s) = s := by
  have hbytes : ByteArray.mk (utf8Bytes s).toArray = s.toByteArray := by
    rw [utf8Bytes, Array.toArray_toList]
  have hvalid : (ByteArray.mk (utf8Bytes s).toArray).IsValidUTF8 := hbytes ▸ s.isValidUTF8
  rw [utf8Text, dif_pos hvalid, ← String.toByteArray_inj]
  exact hbytes

/-- Bytes in lower-case hexadecimal, two digits each. -/
def hexText (bs : List UInt8) : List Char :=
  bs.flatMap fun b => [Nat.digitChar (b.toNat / 16), Nat.digitChar (b.toNat % 16)]

/-- The bytes of the pairs of hexadecimal digits that a text starts with. -/
def hexBytes : List Char → List UInt8
  | hi :: lo :: rest =>
    match digitVal hi, digitVal lo with
    | some x, some y => UInt8.ofNat (16 * x + y) :: hexBytes rest
    | _, _ => []
  | _ => []

theorem hexBytes_hexText (bs : List UInt8) : hexBytes (hexText bs) = bs := by
  induction bs with
  | nil => rfl
  | cons b bs ih =>
    have hb := b.toNat_lt
    have hbyte : UInt8.ofNat (16 * (b.toNat / 16) + b.toNat % 16) = b := by
      rw [Nat.div_add_mod, UInt8.ofNat_toNat]
    rw [hexText] at ih ⊢
    rw [List.flatMap_cons, List.cons_append, List.cons_append, List.nil_append, hexBytes,
      digitVal_digitChar _ (by omega), digitVal_digitChar _ (by omega)]
    dsimp only
    rw [hbyte, ih]

theorem hexText_eq_nil {bs : List UInt8} : hexText bs = [] ↔ bs = [] := by
  cases bs with
  | nil => exact iff_of_true rfl rfl
  | cons b bs => exact iff_of_false (List.cons_ne_nil _ _) (List.cons_ne_nil _ _)

theorem not_mem_hexText {c : Char} (hc : isDigit 16 c = false) (bs : List UInt8) : c ∉ hexText bs := by
  have hne : ∀ d < 16, c ≠ Nat.digitChar d := by
    intro d hd heq
    rw [heq, isDigit_digitChar (Nat.le_refl 16) hd] at hc
    contradiction
  intro hmem
  obtain ⟨b, -, hb⟩ := List.mem_flatMap.mp hmem
  have hlt := b.toNat_lt
  rcases List.mem_cons.mp hb with h | h
  · exact hne _ (by omega) h
  · exact hne _ (by omega) (List.mem_singleton.mp h)

theorem utf8Bytes_eq_nil {s : String} : utf8Bytes s = [] ↔ s = "" := by
  refine ⟨fun h => ?_, fun h => by rw [h]; rfl⟩
  rw [← String.utf8ByteSize_eq_zero_iff, ← length_utf8Bytes, h]
  rfl

end Obliguard.Bytes

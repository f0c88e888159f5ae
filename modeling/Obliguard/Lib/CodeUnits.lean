import Mathlib.Tactic.Common

/-!
# Code units

The texts of JavaScript are rows of UTF-16 code units, surrogates without their partner included.
-/

namespace Obliguard

/-- A text of JavaScript. -/
abbrev JsText := List UInt16

/-- The code units of a character. -/
def charUnits (c : Char) : JsText :=
  if c.toNat < 0x10000 then [UInt16.ofNat c.toNat]
  else [UInt16.ofNat (0xd800 + (c.toNat - 0x10000) / 0x400), UInt16.ofNat (0xdc00 + (c.toNat - 0x10000) % 0x400)]

/-- The code units of a text. -/
def units (s : List Char) : JsText := s.flatMap charUnits

/-- The code unit of an ASCII character. -/
def unit (c : Char) : UInt16 := UInt16.ofNat c.toNat

theorem units_cons (c : Char) (s : List Char) : units (c :: s) = charUnits c ++ units s := List.flatMap_cons

theorem mem_units {s : List Char} {u : UInt16} (h : u ∈ units s) : ∃ c ∈ s, u ∈ charUnits c :=
  List.mem_flatMap.mp h

theorem charUnits_of_lt {c : Char} (h : c.toNat < 0x10000) : charUnits c = [unit c] := if_pos h

end Obliguard

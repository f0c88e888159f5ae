import Mathlib.Order.Basic
import Obliguard.Lib.HighBits

/-!
# Networks

An address is a number of 32 or 128 bits with its family. A network (`Net`) carries the proofs that
its address fits the family, that its length does, and that its host bits are zero, so equal
networks are equal values. Networks are ordered by inclusion. Two networks that share an address
are nested (`Net.le_total_of_mem`), hence overlapping and being comparable are the same thing
(`Net.overlaps_iff`).
-/

namespace Obliguard

open HighBits

/-- The address family. -/
inductive IpFamily
  | v4
  | v6
deriving DecidableEq, Repr

/-- The number of bits of an address. -/
def IpFamily.bits : IpFamily → Nat
  | .v4 => 32
  | .v6 => 128

/-- An address. -/
@[ext] structure Addr where
  family : IpFamily
  value : Nat
  value_lt : value < 2 ^ family.bits
deriving DecidableEq

theorem Addr.full_mask (a : Addr) : a.family.bits ≤ a.family.bits := le_rfl

theorem Addr.low_lt (a : Addr) : a.value % 2 ^ 32 < 2 ^ IpFamily.v4.bits := Nat.mod_lt _ (by norm_num [IpFamily.bits])

/-- A network: all addresses whose first `len` bits are those of `addr`. -/
@[ext] structure Net where
  family : IpFamily
  addr : Nat
  len : Nat
  addr_lt : addr < 2 ^ family.bits
  len_le : len ≤ family.bits
  masked : 2 ^ (family.bits - len) ∣ addr
deriving DecidableEq

namespace Net

/-- The number of host bits. -/
def host (n : Net) : Nat := n.family.bits - n.len

/-- The network of the first `len` bits of an address. -/
def ofAddr (family : IpFamily) (value len : Nat) (hv : value < 2 ^ family.bits)
    (hl : len ≤ family.bits) : Net where
  family := family
  addr := clearLow (family.bits - len) value
  len := len
  addr_lt := lt_of_le_of_lt (clearLow_le _ _) hv
  len_le := hl
  masked := clearLow_dvd _ _

/-- The network of one address. -/
def ofHost (family : IpFamily) (value : Nat) (hv : value < 2 ^ family.bits) : Net :=
  ofAddr family value family.bits hv le_rfl

/-- A single address. -/
def IsHost (n : Net) : Prop := n.len = n.family.bits

instance (n : Net) : Decidable n.IsHost := inferInstanceAs (Decidable (_ = _))

instance : Membership Addr Net where
  mem n a := a.family = n.family ∧ SameHigh n.host a.value n.addr

instance (a : Addr) (n : Net) : Decidable (a ∈ n) :=
  inferInstanceAs (Decidable (a.family = n.family ∧ SameHigh n.host a.value n.addr))

theorem mem_def {a : Addr} {n : Net} :
    a ∈ n ↔ a.family = n.family ∧ SameHigh n.host a.value n.addr := Iff.rfl

instance : LE Net where
  le m n := m.family = n.family ∧ n.len ≤ m.len ∧ SameHigh n.host m.addr n.addr

instance (m n : Net) : Decidable (m ≤ n) :=
  inferInstanceAs (Decidable (m.family = n.family ∧ n.len ≤ m.len ∧ SameHigh n.host m.addr n.addr))

theorem le_def {m n : Net} :
    m ≤ n ↔ m.family = n.family ∧ n.len ≤ m.len ∧ SameHigh n.host m.addr n.addr := Iff.rfl

theorem host_le_host {m n : Net} (hf : m.family = n.family) (hl : n.len ≤ m.len) :
    m.host ≤ n.host := by
  rw [host, host, hf]
  omega

instance : PartialOrder Net where
  le := (· ≤ ·)
  le_refl n := ⟨rfl, le_rfl, SameHigh.refl _ _⟩
  le_trans a b c hab hbc :=
    ⟨hab.1.trans hbc.1, hbc.2.1.trans hab.2.1,
      (hab.2.2.mono (host_le_host hbc.1 hbc.2.1)).trans hbc.2.2⟩
  le_antisymm a b hab hba := by
    have hlen : a.len = b.len := le_antisymm hba.2.1 hab.2.1
    have hhost : a.host = b.host := by rw [host, host, hab.1, hlen]
    have ha : 2 ^ b.host ∣ a.addr := hhost ▸ a.masked
    exact Net.ext hab.1 (hab.2.2.eq ha b.masked) hlen

/-- The network address of a network. -/
def first (n : Net) : Addr := ⟨n.family, n.addr, n.addr_lt⟩

theorem first_mem (n : Net) : n.first ∈ n := ⟨rfl, SameHigh.refl _ _⟩

theorem mem_of_le {m n : Net} (h : m ≤ n) {a : Addr} (ha : a ∈ m) : a ∈ n :=
  ⟨ha.1.trans h.1, (ha.2.mono (host_le_host h.1 h.2.1)).trans h.2.2⟩

theorem le_of_mem_of_len {m n : Net} {a : Addr} (hm : a ∈ m) (hn : a ∈ n) (hl : n.len ≤ m.len) :
    m ≤ n := by
  have hf : m.family = n.family := hm.1.symm.trans hn.1
  exact ⟨hf, hl, (hm.2.mono (host_le_host hf hl)).symm.trans hn.2⟩

/-- Networks that share an address are nested. -/
theorem le_total_of_mem {m n : Net} {a : Addr} (hm : a ∈ m) (hn : a ∈ n) : m ≤ n ∨ n ≤ m := by
  rcases le_total n.len m.len with h | h
  · exact Or.inl (le_of_mem_of_len hm hn h)
  · exact Or.inr (le_of_mem_of_len hn hm h)

/-- The two networks share an address. -/
def Overlaps (m n : Net) : Prop := ∃ a : Addr, a ∈ m ∧ a ∈ n

theorem overlaps_iff {m n : Net} : Overlaps m n ↔ m ≤ n ∨ n ≤ m := by
  constructor
  · rintro ⟨a, hm, hn⟩
    exact le_total_of_mem hm hn
  · rintro (h | h)
    · exact ⟨m.first, m.first_mem, mem_of_le h m.first_mem⟩
    · exact ⟨n.first, mem_of_le h n.first_mem, n.first_mem⟩

instance (m n : Net) : Decidable (Overlaps m n) := decidable_of_iff _ overlaps_iff.symm

theorem Overlaps.symm {m n : Net} (h : Overlaps m n) : Overlaps n m := by
  obtain ⟨a, hm, hn⟩ := h
  exact ⟨a, hn, hm⟩

theorem eq_of_le_of_len {m n : Net} (h : m ≤ n) (hl : m.len = n.len) : m = n := by
  have hhost : n.host = m.host := by rw [host, host, h.1, hl]
  exact le_antisymm h ⟨h.1.symm, hl.le, hhost ▸ h.2.2.symm⟩

theorem len_lt_of_lt {m n : Net} (h : m < n) : n.len < m.len := by
  rcases lt_or_eq_of_le h.le.2.1 with hl | hl
  · exact hl
  · exact absurd (eq_of_le_of_len h.le hl.symm) h.ne

theorem mem_ofAddr {f : IpFamily} {v l : Nat} (hv : v < 2 ^ f.bits) (hl : l ≤ f.bits) {a : Addr} :
    a ∈ ofAddr f v l hv hl ↔ a.family = f ∧ SameHigh (f.bits - l) a.value v := by
  constructor
  · intro h
    exact ⟨h.1, h.2.trans (clearLow_sameHigh _ _)⟩
  · intro h
    exact ⟨h.1, h.2.trans (clearLow_sameHigh _ _).symm⟩

theorem mem_ofHost_addr {n : Net} {a : Addr} :
    a ∈ ofHost n.family n.addr n.addr_lt ↔ a = n.first := by
  rw [ofHost, mem_ofAddr]
  constructor
  · rintro ⟨hf, hv⟩
    exact Addr.ext hf (by simpa [SameHigh, first] using hv)
  · rintro rfl
    exact ⟨rfl, SameHigh.refl _ _⟩

theorem ofAddr_self (n : Net) : ofAddr n.family n.addr n.len n.addr_lt n.len_le = n :=
  Net.ext rfl (clearLow_of_dvd n.masked) rfl

end Net

/-! ## Networks of the samples -/

/-- 198.51.100.7. -/
def sampleHost : Net := ⟨.v4, 0xc6336407, 32, by decide, by decide, by decide⟩

/-- 203.0.113.7. -/
def otherHost : Net := ⟨.v4, 0xcb007107, 32, by decide, sampleHost.len_le, by decide⟩

/-- 198.51.100.0/24. -/
def sampleSubnet : Net := ⟨.v4, 0xc6336400, 24, by decide, by decide, by decide⟩

end Obliguard

import Mathlib.Algebra.Group.Nat.Defs
import Mathlib.Data.List.Basic
import Mathlib.Tactic.Common

/-!
# IPv6 addresses

An address is its eight 16-bit segments, the most significant first. `upper64` and `lower64` are its two halves as
numbers; a half is determined by its four segments (`upper64_eq_iff`, `lower64_eq_iff`) and an address by its halves
(`ext_halves`). `2000::/3` is `GlobalUnicast`; the two ways to test it, a range of the first segment and a mask, are
`range_iff` and `mask_iff`.
-/

namespace Lib

/-- An IPv6 address, by segments. -/
@[ext] structure Ipv6Addr where
  s0 : UInt16
  s1 : UInt16
  s2 : UInt16
  s3 : UInt16
  s4 : UInt16
  s5 : UInt16
  s6 : UInt16
  s7 : UInt16
  deriving DecidableEq, Repr, Inhabited

namespace Ipv6Addr

/-- `::` -/
def unspecified : Ipv6Addr := ⟨0, 0, 0, 0, 0, 0, 0, 0⟩

def segments (a : Ipv6Addr) : List UInt16 := [a.s0, a.s1, a.s2, a.s3, a.s4, a.s5, a.s6, a.s7]

/-- The address of eight segments. -/
def ofSegments : List UInt16 → Ipv6Addr
  | [a, b, c, d, e, f, g, h] => ⟨a, b, c, d, e, f, g, h⟩
  | _ => unspecified

@[simp] theorem ofSegments_segments (a : Ipv6Addr) : ofSegments a.segments = a := rfl

@[simp] theorem length_segments (a : Ipv6Addr) : a.segments.length = 8 := rfl

/-- Four segments as a number. -/
def half (a b c d : UInt16) : Nat := ((a.toNat * 2 ^ 16 + b.toNat) * 2 ^ 16 + c.toNat) * 2 ^ 16 + d.toNat

/-- The upper 64 bits. -/
def upper64 (a : Ipv6Addr) : Nat := half a.s0 a.s1 a.s2 a.s3

/-- The lower 64 bits. -/
def lower64 (a : Ipv6Addr) : Nat := half a.s4 a.s5 a.s6 a.s7

/-- Positional notation: a half is its four digits. -/
theorem half_inj {a b c d a' b' c' d' : UInt16} :
    half a b c d = half a' b' c' d' ↔ a = a' ∧ b = b' ∧ c = c' ∧ d = d' := by
  constructor
  · intro h
    unfold half at h
    have := a.toNat_lt; have := b.toNat_lt; have := c.toNat_lt; have := d.toNat_lt
    have := a'.toNat_lt; have := b'.toNat_lt; have := c'.toNat_lt; have := d'.toNat_lt
    refine ⟨UInt16.toNat_inj.1 ?_, UInt16.toNat_inj.1 ?_, UInt16.toNat_inj.1 ?_, UInt16.toNat_inj.1 ?_⟩ <;> omega
  · rintro ⟨rfl, rfl, rfl, rfl⟩
    rfl

theorem half_lt (a b c d : UInt16) : half a b c d < 2 ^ 64 := by
  have := a.toNat_lt; have := b.toNat_lt; have := c.toNat_lt; have := d.toNat_lt
  unfold half
  omega

theorem lower64_lt (a : Ipv6Addr) : a.lower64 < 2 ^ 64 := half_lt _ _ _ _

theorem upper64_eq_iff {a b : Ipv6Addr} :
    a.upper64 = b.upper64 ↔ a.s0 = b.s0 ∧ a.s1 = b.s1 ∧ a.s2 = b.s2 ∧ a.s3 = b.s3 := half_inj

theorem lower64_eq_iff {a b : Ipv6Addr} :
    a.lower64 = b.lower64 ↔ a.s4 = b.s4 ∧ a.s5 = b.s5 ∧ a.s6 = b.s6 ∧ a.s7 = b.s7 := half_inj

theorem upper64_eq_zero_iff {a : Ipv6Addr} : a.upper64 = 0 ↔ a.s0 = 0 ∧ a.s1 = 0 ∧ a.s2 = 0 ∧ a.s3 = 0 :=
  upper64_eq_iff (b := unspecified)

theorem lower64_eq_zero_iff {a : Ipv6Addr} : a.lower64 = 0 ↔ a.s4 = 0 ∧ a.s5 = 0 ∧ a.s6 = 0 ∧ a.s7 = 0 :=
  lower64_eq_iff (b := unspecified)

/-- An address is its two halves. -/
theorem ext_halves {a b : Ipv6Addr} (hu : a.upper64 = b.upper64) (hl : a.lower64 = b.lower64) : a = b := by
  obtain ⟨h0, h1, h2, h3⟩ := upper64_eq_iff.1 hu
  obtain ⟨h4, h5, h6, h7⟩ := lower64_eq_iff.1 hl
  exact Ipv6Addr.ext h0 h1 h2 h3 h4 h5 h6 h7

/-! ## Global unicast addresses -/

/-- The address lies in `2000::/3`: its first three bits are `001`. -/
def GlobalUnicast (a : Ipv6Addr) : Prop := a.s0.toNat / 2 ^ 13 = 1

instance (a : Ipv6Addr) : Decidable a.GlobalUnicast := inferInstanceAs (Decidable (_ = _))

/-- Masking with shifted ones is shifting, masking and shifting back. -/
theorem land_shiftLeft (x m n : Nat) : x &&& m <<< n = ((x >>> n) &&& m) <<< n := by
  apply Nat.eq_of_testBit_eq
  intro i
  simp only [Nat.testBit_and, Nat.testBit_shiftLeft, Nat.testBit_shiftRight]
  by_cases h : n ≤ i
  · simp [h]
  · simp [h]

/-- The test by mask. -/
theorem mask_iff {a : Ipv6Addr} : a.s0 &&& 0xe000 = 0x2000 ↔ a.GlobalUnicast := by
  have hlt := a.s0.toNat_lt
  rw [GlobalUnicast, ← UInt16.toNat_inj, UInt16.toNat_and, show (0xe000 : UInt16).toNat = 7 <<< 13 from rfl,
    show (0x2000 : UInt16).toNat = 1 <<< 13 from rfl, land_shiftLeft, Nat.shiftRight_eq_div_pow]
  have h7 : a.s0.toNat / 2 ^ 13 &&& 7 = a.s0.toNat / 2 ^ 13 := by
    rw [show 7 = 2 ^ 3 - 1 from rfl, Nat.and_two_pow_sub_one_eq_mod]
    omega
  rw [h7, Nat.shiftLeft_eq, Nat.shiftLeft_eq]
  omega

/-- The test by range. -/
theorem range_iff {a : Ipv6Addr} : 0x2000 ≤ a.s0 ∧ a.s0 ≤ 0x3fff ↔ a.GlobalUnicast := by
  rw [GlobalUnicast, UInt16.le_iff_toNat_le, UInt16.le_iff_toNat_le, show (0x2000 : UInt16).toNat = 0x2000 from rfl,
    show (0x3fff : UInt16).toNat = 0x3fff from rfl]
  omega

/-- `2000::/3` in the upper half. -/
theorem globalUnicast_iff_upper64 {a : Ipv6Addr} : a.GlobalUnicast ↔ a.upper64 / 2 ^ 61 = 1 := by
  have := a.s1.toNat_lt; have := a.s2.toNat_lt; have := a.s3.toNat_lt
  rw [GlobalUnicast, upper64, half]
  omega

/-- Membership in `2000::/3` is a matter of the upper half. -/
theorem globalUnicast_congr {a b : Ipv6Addr} (h : a.upper64 = b.upper64) : a.GlobalUnicast ↔ b.GlobalUnicast := by
  rw [GlobalUnicast, GlobalUnicast, (upper64_eq_iff.1 h).1]

end Ipv6Addr

end Lib

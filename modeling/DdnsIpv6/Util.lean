import DdnsIpv6.Lib.Ipv6

/-!
# `util`: prefixes and suffixes

`combine` puts the upper half of a prefix before the lower half of a suffix (`combine_eq_iff`). In a build with debug
assertions it asserts first that the other two halves are zero; `combineDebug` is that build, where `none` is the
panic, which does not happen where `CombineAsserts` holds (`combineAsserts_iff`).
-/

namespace DdnsIpv6

open Lib

/-- Mask an address to its lower 64 bits. -/
def suffixFromAddr (addr : Ipv6Addr) : Ipv6Addr := ⟨0, 0, 0, 0, addr.s4, addr.s5, addr.s6, addr.s7⟩

/-- `2000::/3`, by the range of the first segment. -/
def isGlobalUnicast (addr : Ipv6Addr) : Bool := 0x2000 ≤ addr.s0 && addr.s0 ≤ 0x3fff

/-- A /64 prefix and a suffix, combined. -/
def combine (p s : Ipv6Addr) : Ipv6Addr := ⟨p.s0, p.s1, p.s2, p.s3, s.s4, s.s5, s.s6, s.s7⟩

/-- What `combine` asserts in a debug build: `prefix lower 64 bits should be zero` and
`suffix upper 64 bits should be zero`. -/
def CombineAsserts (p s : Ipv6Addr) : Prop :=
  (⟨0, 0, 0, 0, p.s4, p.s5, p.s6, p.s7⟩ : Ipv6Addr) = Ipv6Addr.unspecified ∧
    (⟨s.s0, s.s1, s.s2, s.s3, 0, 0, 0, 0⟩ : Ipv6Addr) = Ipv6Addr.unspecified

instance (p s : Ipv6Addr) : Decidable (CombineAsserts p s) := inferInstanceAs (Decidable (_ ∧ _))

/-- `combine` in a debug build; `none` is the panic. -/
def combineDebug (p s : Ipv6Addr) : Option Ipv6Addr := if CombineAsserts p s then some (combine p s) else none

variable {p p' s s' a : Ipv6Addr}

theorem isGlobalUnicast_iff : isGlobalUnicast a = true ↔ a.GlobalUnicast := by
  rw [← Ipv6Addr.range_iff]
  simp [isGlobalUnicast]

@[simp] theorem suffixFromAddr_upper64 (a : Ipv6Addr) : (suffixFromAddr a).upper64 = 0 :=
  Ipv6Addr.upper64_eq_zero_iff.2 ⟨rfl, rfl, rfl, rfl⟩

@[simp] theorem suffixFromAddr_lower64 (a : Ipv6Addr) : (suffixFromAddr a).lower64 = a.lower64 := rfl

@[simp] theorem combine_upper64 (p s : Ipv6Addr) : (combine p s).upper64 = p.upper64 := rfl

@[simp] theorem combine_lower64 (p s : Ipv6Addr) : (combine p s).lower64 = s.lower64 := rfl

/-- A combined address determines the halves it was made of. -/
theorem combine_eq_iff : combine p s = combine p' s' ↔ p.upper64 = p'.upper64 ∧ s.lower64 = s'.lower64 := by
  constructor
  · intro h
    rw [← combine_upper64 p s, ← combine_lower64 p s, h]
    exact ⟨rfl, rfl⟩
  · rintro ⟨hu, hl⟩
    exact Ipv6Addr.ext_halves hu hl

/-- The assertions are about the two halves that `combine` throws away. -/
theorem combineAsserts_iff : CombineAsserts p s ↔ p.lower64 = 0 ∧ s.upper64 = 0 := by
  rw [CombineAsserts, Ipv6Addr.lower64_eq_zero_iff, Ipv6Addr.upper64_eq_zero_iff, Ipv6Addr.ext_iff, Ipv6Addr.ext_iff]
  simp [Ipv6Addr.unspecified]

end DdnsIpv6

import DdnsIpv6.Error
import DdnsIpv6.Lib.Ipv6

/-!
# Prefix detectors: what they share

Each detector has its own copy of the test for global unicast addresses and of the mask to the upper 64 bits. A prefix
that a detector returns is `DetectedFrom` an address that its source presented.
-/

namespace DdnsIpv6.Prefix

open Lib

/-- `2000::/3`, by a mask on the first segment. -/
def isGlobalUnicast (addr : Ipv6Addr) : Bool := addr.s0 &&& 0xe000 == 0x2000

/-- Zero out the lower 64 bits. -/
def maskTo64 (addr : Ipv6Addr) : Ipv6Addr := ⟨addr.s0, addr.s1, addr.s2, addr.s3, 0, 0, 0, 0⟩

/-- The prefix `p` is the /64 of the global unicast address `a`. -/
structure DetectedFrom (a p : Ipv6Addr) : Prop where
  global : a.GlobalUnicast
  upper : p.upper64 = a.upper64
  lower : p.lower64 = 0

variable {a p : Ipv6Addr}

theorem isGlobalUnicast_iff : isGlobalUnicast a = true ↔ a.GlobalUnicast := by
  rw [← Ipv6Addr.mask_iff]
  simp [isGlobalUnicast]

@[simp] theorem maskTo64_upper64 (a : Ipv6Addr) : (maskTo64 a).upper64 = a.upper64 := rfl

@[simp] theorem maskTo64_lower64 (a : Ipv6Addr) : (maskTo64 a).lower64 = 0 :=
  Ipv6Addr.lower64_eq_zero_iff.2 ⟨rfl, rfl, rfl, rfl⟩

theorem maskTo64_eq_iff {b : Ipv6Addr} : maskTo64 a = maskTo64 b ↔ a.upper64 = b.upper64 := by
  refine ⟨fun h => ?_, fun h => Ipv6Addr.ext_halves h ?_⟩
  · rw [← maskTo64_upper64 a, h, maskTo64_upper64]
  · rw [maskTo64_lower64, maskTo64_lower64]

/-- What all detectors do with an address. -/
theorem detectedFrom_mask (h : isGlobalUnicast a = true) : DetectedFrom a (maskTo64 a) :=
  ⟨isGlobalUnicast_iff.1 h, maskTo64_upper64 a, maskTo64_lower64 a⟩

/-- A detected prefix lies in `2000::/3` itself. -/
theorem DetectedFrom.globalUnicast (h : DetectedFrom a p) : p.GlobalUnicast :=
  (Ipv6Addr.globalUnicast_congr h.upper).2 h.global

/-- An address of a lookup or of an interface. -/
inductive IpAddr where
  | v4 (addr : UInt32)
  | v6 (addr : Ipv6Addr)
  deriving DecidableEq, Repr

end DdnsIpv6.Prefix

import DdnsIpv6.Prefix

/-!
# `DnsResolver`: the prefix of a reference domain

The resolver is outside; `resolvePrefixInner` is given its answer.
-/

namespace DdnsIpv6.Prefix.Dns

open Lib

abbrev isGlobalUnicast := Prefix.isGlobalUnicast

abbrev maskTo64 := Prefix.maskTo64

/-- The loop over the addresses of a response. -/
def firstGlobal (domain : String) : List IpAddr → Except Error Ipv6Addr
  | [] => .error (.prefixDetection ("no global unicast AAAA record found for " ++ domain))
  | .v4 _ :: addrs => firstGlobal domain addrs
  | .v6 v6 :: addrs => if isGlobalUnicast v6 then .ok (maskTo64 v6) else firstGlobal domain addrs

/-- Resolve the reference domain and take its first global unicast address. -/
def resolvePrefixInner (lookup : Except String (List IpAddr)) (domain : String) : Except Error Ipv6Addr :=
  match lookup with
  | .error e => .error (.prefixDetection ("DNS resolution failed: " ++ e))
  | .ok response => firstGlobal domain response

/-- `PrefixDetector::detect` -/
def detect (referenceDomain : String) (lookup : Except String (List IpAddr)) : Except Error Ipv6Addr :=
  resolvePrefixInner lookup referenceDomain

variable {domain : String} {lookup : Except String (List IpAddr)} {p : Ipv6Addr}

/-- The addresses of an answer. -/
def presented : Except String (List IpAddr) → List Ipv6Addr
  | .error _ => []
  | .ok response => response.filterMap fun
    | .v4 _ => none
    | .v6 a => some a

/-- The loop finds the first global unicast address, if there is one. -/
theorem firstGlobal_eq (domain : String) : ∀ response : List IpAddr,
    firstGlobal domain response = match (presented (.ok response)).find? isGlobalUnicast with
      | some a => .ok (maskTo64 a)
      | none => .error (.prefixDetection ("no global unicast AAAA record found for " ++ domain))
  | [] => rfl
  | .v4 _ :: addrs => by
    rw [firstGlobal, firstGlobal_eq domain addrs]
    rfl
  | .v6 a :: addrs => by
    rw [firstGlobal, firstGlobal_eq domain addrs]
    simp only [presented, List.filterMap_cons, List.find?_cons]
    cases isGlobalUnicast a <;> rfl

/-- A detected prefix is the /64 of an address of the answer. -/
theorem detect_ok (h : detect domain lookup = .ok p) : ∃ a ∈ presented lookup, DetectedFrom a p := by
  cases lookup with
  | error e => cases h
  | ok response =>
    change firstGlobal domain response = .ok p at h
    rw [firstGlobal_eq] at h
    cases hf : (presented (.ok response)).find? isGlobalUnicast with
    | none =>
      rw [hf] at h
      cases h
    | some a =>
      rw [hf] at h
      cases h
      exact ⟨a, List.mem_of_find?_eq_some hf, detectedFrom_mask (List.find?_some hf)⟩

end DdnsIpv6.Prefix.Dns

import DdnsIpv6.Config
import DdnsIpv6.Prefix.Dns
import DdnsIpv6.Prefix.Netlink
import DdnsIpv6.Prefix.Ra
import Mathlib.Data.List.Induction

/-!
# The three detectors and their sources

`detect` is the detector that a configuration selects, on what its source says: the answers to its queries at the moment
(DNS, netlink) or the packets received so far (RA). Whatever it returns is the /64 of a global unicast address that the
source presented (`detect_ok`).
-/

namespace DdnsIpv6

open Lib Prefix

/-- What the sources that are queried say at the moment. -/
structure Answers where
  /-- the AAAA (and A) records of the reference domain -/
  lookup : Except String (List IpAddr)
  /-- the addresses of the interface -/
  addresses : Except String (Except String (List Netlink.AddressMessage))

/-- `last_prefix` of the RA listener after the packets `received`, in order. -/
def lastPrefix (received : List (List UInt8)) : Option Ipv6Addr :=
  received.foldl (fun last data => (Ra.receive data last).1) none

/-- `PrefixDetector::detect` of the configured method, `last` being `last_prefix` of the RA listener. -/
def detect (method : PrefixConfig) (last : Option Ipv6Addr) (answers : Answers) : Except Error Ipv6Addr :=
  match method with
  | .dns referenceDomain => Dns.detect referenceDomain answers.lookup
  | .netlink interface => Netlink.detect interface answers.addresses
  | .ra _ => Ra.detect last

/-- A Router Advertisement with an autonomous Prefix Information Option for the prefix `a`. -/
def Advertises (data : List UInt8) (a : Ipv6Addr) : Prop :=
  16 ≤ data.length ∧ data[0]? = some 134 ∧
    ∃ o ∈ Ra.raOptions (data.drop 16), o.AutonomousPio ∧ o.prefixField = a

/-- The source of the method presents the address `a`. -/
def Presented (method : PrefixConfig) (received : List (List UInt8)) (answers : Answers) (a : Ipv6Addr) : Prop :=
  match method with
  | .dns _ => a ∈ Dns.presented answers.lookup
  | .netlink _ => a ∈ Netlink.presented answers.addresses
  | .ra _ => ∃ data ∈ received, Advertises data a

/-- One packet: the listener keeps what it had, or takes the prefix that the packet advertises. -/
theorem receive_cases (data : List UInt8) (last : Option Ipv6Addr) :
    (Ra.receive data last).1 = last ∨
      ∃ p a, (Ra.receive data last).1 = some p ∧ Advertises data a ∧ DetectedFrom a p := by
  unfold Ra.receive
  cases h : Ra.packetPrefix data with
  | none => exact Or.inl rfl
  | some p =>
    obtain ⟨hl, ht, o, ho, hpio, hd⟩ := Ra.packetPrefix_eq_some h
    exact Or.inr ⟨p, o.prefixField, rfl, ⟨hl, ht, o, ho, hpio, rfl⟩, hd⟩

/-- The listener's prefix was advertised by a packet. -/
theorem lastPrefix_eq_some {received : List (List UInt8)} {p : Ipv6Addr} (h : lastPrefix received = some p) :
    ∃ data ∈ received, ∃ a, Advertises data a ∧ DetectedFrom a p := by
  induction received using List.reverseRecOn generalizing p with
  | nil => cases h
  | append_singleton received data ih =>
    rw [lastPrefix, List.foldl_append, List.foldl_cons, List.foldl_nil] at h
    rcases receive_cases data (lastPrefix received) with hr | ⟨p', a, hr, ha, hd⟩ <;> rw [lastPrefix] at hr <;>
      rw [hr] at h
    · obtain ⟨data', hm, hx⟩ := ih h
      exact ⟨data', List.mem_append_left _ hm, hx⟩
    · cases h
      exact ⟨data, List.mem_append_right _ List.mem_cons_self, a, ha, hd⟩

/-- **What a detector returns** is the /64 of a global unicast address that its source presented. -/
theorem detect_ok {method : PrefixConfig} {received : List (List UInt8)} {answers : Answers} {p : Ipv6Addr}
    (h : detect method (lastPrefix received) answers = .ok p) :
    ∃ a, Presented method received answers a ∧ DetectedFrom a p := by
  cases method with
  | dns referenceDomain => exact Dns.detect_ok h
  | netlink interface => exact Netlink.detect_ok h
  | ra interface =>
    change Ra.detect (lastPrefix received) = .ok p at h
    cases hl : lastPrefix received with
    | none =>
      rw [hl] at h
      cases h
    | some p' =>
      rw [hl] at h
      cases h
      obtain ⟨data, hm, a, ha, hd⟩ := lastPrefix_eq_some hl
      exact ⟨a, ⟨data, hm, ha⟩, hd⟩

end DdnsIpv6

import DdnsIpv6.Prefix
import Mathlib.Data.List.Sort

/-!
# `NetlinkWatcher`: the prefix of an interface

The kernel is outside; `detectPrefix` is given the address messages of the interface. Candidates are sorted by
descending lifetimes, and the sort is stable.
-/

namespace DdnsIpv6.Prefix.Netlink

open Lib

abbrev isGlobalUnicast := Prefix.isGlobalUnicast

abbrev maskTo64 := Prefix.maskTo64

structure CacheInfo where
  valid : UInt32
  preferred : UInt32
  deriving DecidableEq, Repr

/-- An address message, as far as it is read. -/
structure AddressMessage where
  isIpv6 : Bool
  address : Option IpAddr
  isSecondary : Bool
  isPermanent : Bool
  cacheInfo : Option CacheInfo
  deriving DecidableEq, Repr

/-- An address with its valid and preferred lifetimes. -/
structure Candidate where
  addr : Ipv6Addr
  validLft : UInt32
  preferredLft : UInt32
  deriving DecidableEq, Repr

/-- `u32::MAX` -/
def maxLft : UInt32 := 0xffffffff

/-- The candidate of a message, unless it is skipped. -/
def candidate (msg : AddressMessage) : Option Candidate :=
  if !msg.isIpv6 then none
  else match msg.address with
    | some (.v6 v6) =>
      if !isGlobalUnicast v6 then none
      -- temporary privacy addresses
      else if msg.isSecondary && !msg.isPermanent then none
      else some ⟨v6, (msg.cacheInfo.map CacheInfo.valid).getD maxLft,
        (msg.cacheInfo.map CacheInfo.preferred).getD maxLft⟩
    | _ => none

/-- `b.1.cmp(&a.1).then_with(|| b.2.cmp(&a.2))` -/
def cmp (a b : Candidate) : Ordering :=
  (compare b.validLft a.validLft).then (compare b.preferredLft a.preferredLft)

/-- The stable sort of the candidates. -/
def sortCandidates (cs : List Candidate) : List Candidate := cs.insertionSort fun a b => (cmp a b).isLE = true

/-- Query an interface. The first failure is that of the connection, the second that of the listing. -/
def detectPrefix (reply : Except String (Except String (List AddressMessage))) (interface : String) :
    Except Error Ipv6Addr :=
  match reply with
  | .error e => .error (.other e)
  | .ok (.error e) => .error (.prefixDetection ("netlink: failed to list addresses: " ++ e))
  | .ok (.ok addresses) =>
    match sortCandidates (addresses.filterMap candidate) with
    -- sorting keeps the candidates, so there was none
    | [] => .error (.prefixDetection ("no global unicast IPv6 address found on interface '" ++ interface ++ "'"))
    | best :: _ => .ok (maskTo64 best.addr)

/-- `PrefixDetector::detect` -/
def detect (interface : String) (reply : Except String (Except String (List AddressMessage))) : Except Error Ipv6Addr :=
  detectPrefix reply interface

/-- The IPv6 addresses of a reply. -/
def presented : Except String (Except String (List AddressMessage)) → List Ipv6Addr
  | .ok (.ok addresses) => addresses.filterMap fun msg =>
    match msg.address with
    | some (.v6 a) => some a
    | _ => none
  | _ => []

variable {interface : String} {reply : Except String (Except String (List AddressMessage))} {msg : AddressMessage}
  {c : Candidate} {p : Ipv6Addr}

/-- What the filter lets through. -/
theorem candidate_eq_some : candidate msg = some c ↔
    msg.isIpv6 = true ∧ msg.address = some (.v6 c.addr) ∧ isGlobalUnicast c.addr = true ∧
      ¬(msg.isSecondary = true ∧ msg.isPermanent = false) ∧
      c.validLft = (msg.cacheInfo.map CacheInfo.valid).getD maxLft ∧
      c.preferredLft = (msg.cacheInfo.map CacheInfo.preferred).getD maxLft := by
  obtain ⟨addr, v, l⟩ := c
  rcases msg with ⟨_ | _, _ | _ | a, sec, perm, info⟩ <;> simp [candidate]
  constructor
  · rintro ⟨hg, ht, rfl, rfl, rfl⟩
    exact ⟨rfl, hg, ht, rfl, rfl⟩
  · rintro ⟨rfl, hg, ht, rfl, rfl⟩
    exact ⟨hg, ht, rfl, rfl, rfl⟩

/-- A detected prefix is the /64 of an address of the interface. -/
theorem detect_ok (h : detect interface reply = .ok p) : ∃ a ∈ presented reply, DetectedFrom a p := by
  rcases reply with e | e | addresses
  · cases h
  · cases h
  · simp only [detect, detectPrefix] at h
    cases hs : sortCandidates (addresses.filterMap candidate) with
    | nil =>
      rw [hs] at h
      cases h
    | cons best cs =>
      rw [hs] at h
      cases h
      have hbest : best ∈ addresses.filterMap candidate :=
        (List.mem_insertionSort _).1 (hs ▸ List.mem_cons_self)
      obtain ⟨msg, hm, hc⟩ := List.mem_filterMap.1 hbest
      obtain ⟨_, ha, hg, _⟩ := candidate_eq_some.1 hc
      exact ⟨best.addr, List.mem_filterMap.2 ⟨msg, hm, by rw [ha]⟩, detectedFrom_mask hg⟩

end DdnsIpv6.Prefix.Netlink

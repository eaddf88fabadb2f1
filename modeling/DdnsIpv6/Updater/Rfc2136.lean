import DdnsIpv6.Updater

/-!
# `updater::rfc2136`

`Rfc2136Updater` over a DNS update client: `getRecord` reads the first AAAA record of the RRset, `setRecord` replaces
the RRset unless the record that it read is the wanted one. A read that fails does not stop the write.
-/

namespace DdnsIpv6

open Lib

/-! ## The client -/

inductive TsigAlgorithm where
  | hmacSha256 | hmacSha512
  deriving DecidableEq, Repr

inductive DnsRecordType where
  | aaaa
  deriving DecidableEq, Repr

inductive DnsRecord where
  | aaaa (addr : Ipv6Addr)
  | other (data : String)
  deriving DecidableEq, Repr

/-- The address of an AAAA record. -/
def DnsRecord.asAaaa : DnsRecord → Option Ipv6Addr
  | .aaaa addr => some addr
  | .other _ => none

/-- The client of a name server, in a world `σ`. -/
structure DnsUpdateClient (σ : Type*) where
  listRrset : (name : String) → DnsRecordType → (origin : String) → σ → Except String (List DnsRecord) × σ
  setRrset : (name : String) → DnsRecordType → (ttl : Nat) → List DnsRecord → (origin : String) → σ →
    Except String Unit × σ

variable {σ : Type}

/-! ## `Rfc2136Updater` -/

structure Rfc2136Updater (σ : Type*) where
  updater : DnsUpdateClient σ

namespace Rfc2136Updater

/-- `newRfc2136Tsig` makes the client: it takes server, key name, key and algorithm. -/
def new (newRfc2136Tsig : String → String → List UInt8 → TsigAlgorithm → Except String (DnsUpdateClient σ))
    (server keyName keyAlgorithm keySecret : String) : Except Error (Rfc2136Updater σ) := do
  let algorithm ←
    if keyAlgorithm = "hmac-sha256" then .ok .hmacSha256
    else if keyAlgorithm = "hmac-sha512" then .ok .hmacSha512
    else .error (.config (.unknownAlgorithm keyAlgorithm))
  let updater ← (newRfc2136Tsig server keyName keySecret.toUTF8.toList algorithm).mapError .other
  return ⟨updater⟩

/-- The zone (origin) of a domain name: what follows the first dot, or the whole name. -/
def zoneFromDomain (domain : String) : String :=
  match domain.toList.dropWhile (· != '.') with
  | [] => domain
  | _ :: zone => String.ofList zone

variable (self : Rfc2136Updater σ)

def getRecord (domain : String) (w : σ) : Except Error (Option Ipv6Addr) × σ :=
  match self.updater.listRrset domain .aaaa (zoneFromDomain domain) w with
  | (.error e, w) => (.error (.update domain (.client e)), w)
  | (.ok records, w) => (.ok (records.findSome? DnsRecord.asAaaa), w)

/-- Replace the RRset. -/
def replace (domain : String) (addr : Ipv6Addr) (w : σ) : Except Error Unit × σ :=
  match self.updater.setRrset domain .aaaa 120 [.aaaa addr] (zoneFromDomain domain) w with
  | (.error e, w) => (.error (.update domain (.client e)), w)
  | (.ok (), w) => (.ok (), w)

def setRecord (domain : String) (addr : Ipv6Addr) (w : σ) : Except Error Unit × σ :=
  match self.getRecord domain w with
  | (.ok (some current), w) => if current = addr then (.ok (), w) else self.replace domain addr w
  | (_, w) => self.replace domain addr w

/-- `impl DnsUpdater for Rfc2136Updater` -/
def toDnsUpdater : DnsUpdater σ := ⟨self.setRecord, self.getRecord⟩

end Rfc2136Updater

example : Rfc2136Updater.zoneFromDomain "server-a.example.com" = "example.com" := by decide
example : Rfc2136Updater.zoneFromDomain "localhost" = "localhost" := by decide

end DdnsIpv6

import DdnsIpv6.Error
import DdnsIpv6.Lib.Ipv6

/-!
# `trait DnsUpdater`

An updater acts on a world `σ`: whatever its remote calls depend on and change.
-/

namespace DdnsIpv6

open Lib

structure DnsUpdater (σ : Type*) where
  setRecord : String → Ipv6Addr → σ → Except Error Unit × σ
  getRecord : String → σ → Except Error (Option Ipv6Addr) × σ

end DdnsIpv6

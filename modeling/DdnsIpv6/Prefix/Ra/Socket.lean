import DdnsIpv6.Prefix.Ra.Encode

/-!
# The socket of the RA listener

`run_ra_listener` sets up a raw ICMPv6 socket with a filter for the packet type, binds it to the interface and reads
packets into a buffer of 1500 bytes, whatever `recv` fails on. The filter blocks nothing that the parser would use
(`blocks_eq_false_iff`), and a packet that the buffer cuts off gives no other prefix than the whole packet: the listener
hears of prefixes that were announced, in order, and of all of them unless the setup fails, the kernel drops packets or
they are longer than the buffer (`listen_exact`).
-/

namespace DdnsIpv6.Prefix.Ra

open Lib

/-! ## Setting up -/

/-- The filter that `set_icmp6_filter` sets. -/
def icmp6Filter : List UInt32 :=
  let filter : List UInt32 := List.replicate 8 0xFFFFFFFF
  -- unblock type 134 (Router Advertisement)
  let word := 134 / 32
  let bit : UInt32 := 134 % 32
  filter.modify word (· &&& ~~~((1 : UInt32) <<< bit))

/-- What a filter means to the kernel: a type whose bit is set is blocked. -/
def blocks (filter : List UInt32) (type : UInt8) : Bool :=
  (filter[type.toNat / 32]?.getD 0).toBitVec.getLsbD (type.toNat % 32)

/-- `libc::IFNAMSIZ` -/
def ifNameSize : Nat := 16

/-- `bind_to_device` up to the system call: the name in its buffer, and its length. -/
def bindToDevice (interface : String) : Except Error (List UInt8 × Nat) :=
  let nameBytes := interface.toUTF8.toList
  if ifNameSize ≤ nameBytes.length then .error (.other "interface name too long")
  else .ok (nameBytes ++ List.replicate (ifNameSize - nameBytes.length) 0, nameBytes.length)

/-- What the system answers to the calls that set the socket up. -/
structure SocketCalls where
  socket : Except String Unit
  setFilter : List UInt32 → Except String Unit
  bind : List UInt8 × Nat → Except String Unit

/-- `run_ra_listener` up to its loop. -/
def setUp (interface : String) (calls : SocketCalls) : Except Error Unit := do
  calls.socket.mapError Error.other
  (calls.setFilter icmp6Filter).mapError Error.other
  let ifname ← bindToDevice interface
  (calls.bind ifname).mapError Error.other

/-! ## Reading -/

/-- The size of the buffer. -/
def bufferSize : Nat := 1500

/-- What the kernel does for the socket: the answers to the calls of `recv`, for a filter and the ICMPv6 packets that
come to the interface. -/
structure Kernel where
  recv : List UInt32 → List (List UInt8) → List (Except String (List UInt8))
  /-- A packet is received once at most, in its turn, and cut off at the size of the buffer. -/
  received : ∀ filter packets,
    ((recv filter packets).filterMap Except.toOption).Sublist (packets.map (·.take bufferSize))

/-- The packets that the filter does not block. -/
def unblocked (filter : List UInt32) (packets : List (List UInt8)) : List (List UInt8) :=
  packets.filter fun data => data.head?.any fun type => !blocks filter type

/-- Of these packets, none is dropped that the filter does not block. -/
def Kernel.Lossless (kernel : Kernel) (packets : List (List UInt8)) : Prop :=
  ((unblocked icmp6Filter packets).map (·.take bufferSize)).Sublist
    ((kernel.recv icmp6Filter packets).filterMap Except.toOption)

/-- The loop of `run_ra_listener`, over the answers to `recv`: `last_prefix`, and the number of changes sent. -/
def listenLoop : List (Except String (List UInt8)) → Option Ipv6Addr × Nat → Option Ipv6Addr × Nat
  | [], s => s
  | .ok data :: answers, (last, sent) =>
    let (last', change) := receive data last
    listenLoop answers (last', if change then sent + 1 else sent)
  -- an error of `recv` is logged
  | .error _ :: answers, s => listenLoop answers s

/-- `run_ra_listener`, for the ICMPv6 packets that come to the interface. -/
def listen (interface : String) (calls : SocketCalls) (kernel : Kernel) (packets : List (List UInt8)) :
    Option Ipv6Addr × Nat :=
  match setUp interface calls with
  | .error _ => (none, 0)
  | .ok () => listenLoop (kernel.recv icmp6Filter packets) (none, 0)

/-- A kernel that blocks by the filter, and drops nothing else. -/
def Kernel.lossless : Kernel where
  recv := fun filter packets => (unblocked filter packets).map fun data => .ok (data.take bufferSize)
  received := fun filter packets => by
    rw [List.filterMap_map]
    exact (List.filterMap_eq_map (f := fun data : List UInt8 => data.take bufferSize)) ▸
      List.Sublist.map _ List.filter_sublist

theorem lossless_lossless (packets : List (List UInt8)) : Kernel.lossless.Lossless packets := by
  rw [Kernel.Lossless, Kernel.lossless, List.filterMap_map]
  exact (List.filterMap_eq_map (f := fun data : List UInt8 => data.take bufferSize)) ▸ List.Sublist.refl _

/-! ## The filter -/

/-- **The filter** lets Router Advertisements through, and no other type. -/
theorem blocks_eq_false_iff (type : UInt8) : blocks icmp6Filter type = false ↔ type = 134 := by
  have hwords : ∀ w < 8, icmp6Filter[w]?.getD 0 = if w = 4 then 0xFFFFFFBF else 0xFFFFFFFF := by decide
  have hfull : ∀ i < 32, (0xFFFFFFFF : UInt32).toBitVec.getLsbD i = true := by decide
  have hopen : ∀ i < 32, (0xFFFFFFBF : UInt32).toBitVec.getLsbD i = false ↔ i = 6 := by decide
  have hlt := type.toNat_lt
  rw [blocks, hwords _ (by omega), ← UInt8.toNat_inj, show (134 : UInt8).toNat = 134 from rfl]
  split
  · rw [hopen _ (by omega)]
    omega
  · rw [hfull _ (by omega)]
    refine ⟨(fun h => nomatch h), fun h => ?_⟩
    omega

/-- A packet that gives a prefix has the type of Router Advertisements. -/
theorem head_of_packetPrefix {data : List UInt8} {p : Ipv6Addr} (h : packetPrefix data = some p) :
    data.head? = some 134 := by
  rw [List.head?_eq_getElem?]
  exact (packetPrefix_eq_some h).2.1

/-- The filter blocks no packet that has a prefix. -/
theorem filterMap_unblocked (packets : List (List UInt8)) :
    ((unblocked icmp6Filter packets).map (·.take bufferSize)).filterMap packetPrefix =
      packets.filterMap fun data => packetPrefix (data.take bufferSize) := by
  have htake : ∀ data : List UInt8, (data.take bufferSize).head? = data.head? := fun data => by
    cases data <;> rfl
  rw [unblocked, List.filterMap_map, List.filterMap_filter]
  refine List.filterMap_congr fun data _ => ?_
  split
  · rfl
  · rename_i hblocked
    cases hp : packetPrefix (data.take bufferSize) with
    | none => rfl
    | some p =>
      have hhead : data.head? = some 134 := (htake data).symm.trans (head_of_packetPrefix hp)
      rw [hhead, Option.any_some, (blocks_eq_false_iff 134).2 rfl] at hblocked
      exact absurd rfl hblocked

/-! ## The loop -/

/-- The prefixes of the packets that were received. -/
def prefixesOf (answers : List (Except String (List UInt8))) : List Ipv6Addr :=
  (answers.filterMap Except.toOption).filterMap packetPrefix

/-- The loop remembers the last prefix and sends a change for each. -/
theorem listenLoop_eq : ∀ (answers : List (Except String (List UInt8))) (last : Option Ipv6Addr) (sent : Nat),
    listenLoop answers (last, sent) = ((prefixesOf answers).getLast?.or last, sent + (prefixesOf answers).length)
  | [], _, _ => rfl
  | .error _ :: answers, last, sent => listenLoop_eq answers last sent
  | .ok data :: answers, last, sent => by
    have hok : prefixesOf (.ok data :: answers) = (packetPrefix data).toList ++ prefixesOf answers := by
      simp only [prefixesOf, List.filterMap_cons, Except.toOption]
      cases packetPrefix data <;> rfl
    rw [listenLoop, receive, hok]
    cases packetPrefix data with
    | none => exact listenLoop_eq answers last sent
    | some p =>
      simp only [listenLoop_eq answers, if_true, Option.toList_some, List.singleton_append, List.length_cons,
        List.getLast?_cons]
      refine Prod.ext ?_ (by omega)
      cases (prefixesOf answers).getLast? <;> rfl

/-- A packet that the buffer cuts off gives its prefix or none. -/
theorem packetPrefix_take {data : List UInt8} {n : Nat} {p : Ipv6Addr} (h : packetPrefix (data.take n) = some p) :
    packetPrefix data = some p := by
  rw [packetPrefix] at h
  split at h
  · rename_i r hr
    subst h
    rw [packetPrefix, parseRaPacket_take hr]
  · cases h

/-- What is heard through the buffer is a part of what was announced. -/
theorem sublist_heard : ∀ packets : List (List UInt8),
    (packets.filterMap fun data => packetPrefix (data.take bufferSize)).Sublist (packets.filterMap packetPrefix)
  | [] => List.Sublist.slnil
  | data :: packets => by
    have ih := sublist_heard packets
    rw [List.filterMap_cons, List.filterMap_cons]
    cases hp : packetPrefix (data.take bufferSize) with
    | some p =>
      rw [packetPrefix_take hp]
      exact ih.cons_cons p
    | none =>
      cases packetPrefix data with
      | none => exact ih
      | some p => exact ih.cons p

/-- What the kernel hands on is a part of what fits through the buffer, -/
theorem sublist_received (kernel : Kernel) (packets : List (List UInt8)) :
    (prefixesOf (kernel.recv icmp6Filter packets)).Sublist
      (packets.filterMap fun data => packetPrefix (data.take bufferSize)) := by
  have h := (kernel.received icmp6Filter packets).filterMap packetPrefix
  rwa [List.filterMap_map] at h

/-- and all of it if it drops nothing. -/
theorem received_of_lossless {kernel : Kernel} {packets : List (List UInt8)} (h : kernel.Lossless packets) :
    prefixesOf (kernel.recv icmp6Filter packets) =
      packets.filterMap fun data => packetPrefix (data.take bufferSize) := by
  refine (sublist_received kernel packets).antisymm ?_
  rw [← filterMap_unblocked]
  exact List.Sublist.filterMap packetPrefix h

/-- **The listener hears of prefixes that were announced**, in order; of all of them if the socket can be set up, the
kernel drops no packet that the filter lets through, and the packets fit into the buffer. It remembers the last one, and
sends a change for each. -/
theorem listen_exact (interface : String) (calls : SocketCalls) (kernel : Kernel) (packets : List (List UInt8)) :
    ∃ heard : List Ipv6Addr, heard.Sublist (packets.filterMap packetPrefix) ∧
      (setUp interface calls = .ok () → kernel.Lossless packets → (∀ data ∈ packets, data.length ≤ bufferSize) →
        heard = packets.filterMap packetPrefix) ∧
      listen interface calls kernel packets = (heard.getLast?, heard.length) := by
  unfold listen
  cases hs : setUp interface calls with
  | error e => exact ⟨[], List.nil_sublist _, (fun h => nomatch h), rfl⟩
  | ok u =>
    refine ⟨_, (sublist_received kernel packets).trans (sublist_heard packets), fun _ hlossless hfits => ?_, ?_⟩
    · rw [received_of_lossless hlossless]
      exact List.filterMap_congr fun data hdata => by rw [List.take_of_length_le (hfits data hdata)]
    · simp only [listenLoop_eq, Option.or_none, Nat.zero_add]

/-- System calls that succeed. -/
def sampleCalls : SocketCalls := ⟨.ok (), fun _ => .ok (), fun _ => .ok ()⟩

/-- A packet of the tests is heard. -/
theorem listen_exact_build :
    listen "eth0" sampleCalls .lossless [buildRaPacket ⟨0x2001, 0xdb8, 0, 1, 0, 0, 0, 0⟩ true] =
      (some ⟨0x2001, 0xdb8, 0, 1, 0, 0, 0, 0⟩, 1) := by
  obtain ⟨heard, -, hall, hlisten⟩ :=
    listen_exact "eth0" sampleCalls .lossless [buildRaPacket ⟨0x2001, 0xdb8, 0, 1, 0, 0, 0, 0⟩ true]
  have hfits : ∀ data ∈ [buildRaPacket ⟨0x2001, 0xdb8, 0, 1, 0, 0, 0, 0⟩ true], data.length ≤ bufferSize := by
    intro data hdata
    rw [List.mem_singleton.1 hdata, length_buildRaPacket]
    decide
  have hheard := hall (by decide +kernel) (lossless_lossless _) hfits
  have hprefix : packetPrefix (buildRaPacket ⟨0x2001, 0xdb8, 0, 1, 0, 0, 0, 0⟩ true) =
      some ⟨0x2001, 0xdb8, 0, 1, 0, 0, 0, 0⟩ := by
    rw [packetPrefix, parseRaPacket_build]
    rfl
  rw [hlisten, hheard, List.filterMap_cons_some hprefix]
  rfl

end DdnsIpv6.Prefix.Ra

import DdnsIpv6.Prefix.Ra.Format

/-!
# Writing Router Advertisements

A Prefix Information Option is written field by field (`Pio.option`), and a packet is a header with its options
(`encodeRa`). The parser reads back what was written: the /64 of the first autonomous global prefix
(`parseRaPacket_encode`), in particular from the packets that `build_ra_packet` of the tests makes
(`parseRaPacket_build`). A packet that is cut off somewhere gives that of the options which are left
(`parseRaPacket_cut`), and never another prefix than the whole one (`parseRaPacket_take`).
-/

namespace DdnsIpv6.Prefix.Ra

open Lib

/-! ## Fields as bytes -/

/-- `u16::to_be_bytes` -/
def toBeBytes16 (n : UInt16) : List UInt8 := [(n >>> 8).toUInt8, n.toUInt8]

/-- `u32::to_be_bytes` -/
def toBeBytes32 (n : UInt32) : List UInt8 := [(n >>> 24).toUInt8, (n >>> 16).toUInt8, (n >>> 8).toUInt8, n.toUInt8]

/-- `Ipv6Addr::octets` -/
def octets (addr : Ipv6Addr) : List UInt8 := addr.segments.flatMap toBeBytes16

@[simp] theorem length_octets (addr : Ipv6Addr) : (octets addr).length = 16 := rfl

/-- Reading a segment undoes writing it. -/
theorem fromBeBytes_toBeBytes (n : UInt16) : fromBeBytes (n >>> 8).toUInt8 n.toUInt8 = n := by
  have := n.toNat_lt
  rw [← UInt16.toNat_inj, toNat_fromBeBytes, UInt16.toNat_toUInt8, UInt16.toNat_toUInt8, UInt16.toNat_shiftRight,
    Nat.shiftRight_eq_div_pow]
  simp only [UInt16.reduceToNat, Nat.reduceMod, Nat.reducePow]
  omega

theorem beSegments_octets (addr : Ipv6Addr) : beSegments (octets addr) = addr.segments := by
  simp only [octets, Ipv6Addr.segments, List.flatMap_cons, List.flatMap_nil, toBeBytes16, List.cons_append,
    List.nil_append, beSegments, fromBeBytes_toBeBytes]

/-! ## Options, field by field -/

/-- A Prefix Information Option. -/
structure Pio where
  prefixLength : UInt8
  flags : UInt8
  validLifetime : UInt32
  preferredLifetime : UInt32
  reserved : UInt32
  pfx : Ipv6Addr
  deriving DecidableEq, Repr

/-- The option as it is sent. -/
def Pio.option (o : Pio) : RaOption where
  type := 3
  len := 4
  body := [o.prefixLength, o.flags] ++ toBeBytes32 o.validLifetime ++ toBeBytes32 o.preferredLifetime ++
    toBeBytes32 o.reserved ++ octets o.pfx
  length_body := rfl

theorem Pio.prefixField_option (o : Pio) : o.option.prefixField = o.pfx := by
  have hbody : (o.option.body.drop 14).take 16 = octets o.pfx := rfl
  rw [RaOption.prefixField, hbody, beSegments_octets, Ipv6Addr.ofSegments_segments]

/-- An option of a packet: a Prefix Information Option, or one of another type. -/
inductive WireOption where
  | prefixInformation (pio : Pio)
  | other (o : RaOption) (type_ne : o.type ≠ 3)

def WireOption.option : WireOption → RaOption
  | prefixInformation pio => pio.option
  | other o _ => o

/-- What the sender of an option announces: an autonomous global prefix. -/
def WireOption.announced : WireOption → Option Ipv6Addr
  | prefixInformation pio =>
    if pio.flags &&& 0x40 ≠ 0 ∧ pio.pfx.GlobalUnicast then some (maskTo64 pio.pfx) else none
  | other _ _ => none

/-- Reading an option undoes writing it. -/
theorem WireOption.announced_option : ∀ o : WireOption, o.option.announced = o.announced
  | prefixInformation pio => by
    have hflags : pio.option.body[1]?.getD 0 = pio.flags := rfl
    have hlen : 4 ≤ pio.option.len.toNat := Nat.le_refl 4
    simp only [option, RaOption.announced, announced, Pio.prefixField_option, hflags, hlen, isGlobalUnicast_iff,
      true_and, show pio.option.type = 3 from rfl]
  | other o h => by
    rw [option, RaOption.announced, if_neg fun hc => h hc.1]
    rfl

/-- A Router Advertisement with these options. -/
def encodeRa (h : RaHeader) (os : List WireOption) : List UInt8 :=
  h.encode ++ (os.map WireOption.option).flatMap RaOption.encode

/-- **The parser reads back what was written**: the /64 of the first autonomous global prefix, for every header and
every sequence of options. -/
theorem parseRaPacket_encode (h : RaHeader) (os : List WireOption) :
    parseRaPacket (encodeRa h os) = .returned (os.findSome? WireOption.announced) := by
  rw [parseRaPacket_packetOptions, encodeRa, packetOptions_encode, raOptions_flatMap, List.findSome?_map]
  congr 2
  exact funext WireOption.announced_option

/-- `build_ra_packet` of the tests. -/
def buildRaPacket (pfx : Ipv6Addr) (aFlag : Bool) : List UInt8 :=
  let flags := if aFlag then 0xC0 else 0x80
  -- ICMPv6 header, RA body
  [134, 0] ++ [0, 0] ++ [64, 0] ++ toBeBytes16 1800 ++ toBeBytes32 0 ++ toBeBytes32 0 ++
  -- PIO
  [3, 4, 64, flags] ++ toBeBytes32 86400 ++ toBeBytes32 14400 ++ [0, 0, 0, 0] ++ octets pfx

/-- The assertion at the end of `build_ra_packet`. -/
theorem length_buildRaPacket (pfx : Ipv6Addr) (aFlag : Bool) : (buildRaPacket pfx aFlag).length = 48 := by
  simp only [buildRaPacket, toBeBytes16, toBeBytes32, List.length_append, List.length_cons, List.length_nil,
    length_octets]

/-- The packets of the tests are those of a header and one option. -/
theorem buildRaPacket_eq (pfx : Ipv6Addr) (aFlag : Bool) : buildRaPacket pfx aFlag =
    encodeRa ⟨[0, 0, 0, 64, 0] ++ toBeBytes16 1800 ++ toBeBytes32 0 ++ toBeBytes32 0, rfl⟩
      [.prefixInformation ⟨64, if aFlag then 0xC0 else 0x80, 86400, 14400, 0, pfx⟩] := by
  have hreserved : toBeBytes32 0 = [0, 0, 0, 0] := rfl
  simp only [buildRaPacket, encodeRa, RaHeader.encode, WireOption.option, Pio.option, RaOption.encode, hreserved,
    List.map_cons, List.map_nil, List.flatMap_cons, List.flatMap_nil, List.append_assoc, List.cons_append,
    List.nil_append, List.append_nil]

/-- **What the tests check for some prefixes**, for all of them. -/
theorem parseRaPacket_build (pfx : Ipv6Addr) (aFlag : Bool) : parseRaPacket (buildRaPacket pfx aFlag) =
    .returned (if aFlag = true ∧ pfx.GlobalUnicast then some (maskTo64 pfx) else none) := by
  have hset : (0xC0 : UInt8) &&& 0x40 ≠ 0 := by decide
  have hunset : (0x80 : UInt8) &&& 0x40 = 0 := by decide
  rw [buildRaPacket_eq, parseRaPacket_encode, List.findSome?_singleton, WireOption.announced]
  cases aFlag with
  | false => simp only [Bool.false_eq_true, if_false, hunset, ne_eq, not_true_eq_false, false_and]
  | true => simp only [if_true, hset, ne_eq, not_false_eq_true, true_and]

/-! ## Packets that are cut off -/

/-- The options of the first bytes are the first options. -/
theorem raOptions_take (bs : List UInt8) (n : Nat) : raOptions (bs.take n) <+: raOptions bs := by
  obtain ⟨rest, hrest, -⟩ := optionsOf_raOptions (bs.take n)
  have hbs : bs = (raOptions (bs.take n)).flatMap RaOption.encode ++ (rest ++ bs.drop n) := by
    rw [← List.append_assoc, ← hrest, List.take_append_drop]
  refine ⟨raOptions (rest ++ bs.drop n), ?_⟩
  conv_rhs => rw [hbs, raOptions_append]

theorem packetOptions_take_prefix (data : List UInt8) (n : Nat) :
    packetOptions (data.take n) <+: packetOptions data := by
  unfold packetOptions
  split
  · rename_i h
    obtain ⟨hlen, hhead⟩ := h
    rw [List.length_take] at hlen
    rw [List.getElem?_take_of_lt (by omega)] at hhead
    rw [if_pos ⟨by omega, hhead⟩, List.drop_take]
    exact raOptions_take _ _
  · exact List.nil_prefix

/-- **A packet that is cut off** gives no other prefix than the whole packet. -/
theorem parseRaPacket_take {data : List UInt8} {n : Nat} {p : Ipv6Addr}
    (h : parseRaPacket (data.take n) = .returned (some p)) : parseRaPacket data = .returned (some p) := by
  rw [parseRaPacket_eq_some_iff] at h ⊢
  obtain ⟨o, ho, hp⟩ := h
  obtain ⟨rest, hrest⟩ := packetOptions_take_prefix data n
  exact ⟨o, hrest ▸ ho.append rest, hp⟩

/-- The options that lie within the first `room` bytes. -/
def fitting : List WireOption → Nat → List WireOption
  | [], _ => []
  | o :: os, room => if o.option.size ≤ room then o :: fitting os (room - o.option.size) else []

theorem fitting_zero : ∀ os : List WireOption, fitting os 0 = []
  | [] => rfl
  | o :: _ => if_neg (Nat.not_le.2 o.option.size_pos)

/-- An option that is cut off is not read. -/
theorem readOption_cut {o : RaOption} {room : Nat} (h : room < o.size) : readOption (o.encode.take room) = none := by
  cases hread : readOption (o.encode.take room) with
  | none => rfl
  | some o' =>
    -- it would be the whole option
    have htake := eq_encode_append hread
    have hwhole : o.encode ++ [] = o'.encode ++ ((o.encode.take room).drop o'.size ++ o.encode.drop room) := by
      rw [← List.append_assoc, ← htake, List.take_append_drop, List.append_nil]
    have hsame : some o = some o' := by
      rw [← readOption_encode o [], hwhole, readOption_encode]
    have hlen := congrArg List.length htake
    rw [← Option.some.inj hsame, List.length_append, List.length_take, o.length_encode] at hlen
    omega

theorem raOptions_cut : ∀ (os : List WireOption) (room : Nat),
    raOptions (((os.map WireOption.option).flatMap RaOption.encode).take room) = (fitting os room).map WireOption.option
  | [], room => by
    rw [List.map_nil, List.flatMap_nil, List.take_nil]
    exact raOptions_flatMap []
  | o :: os, room => by
    rw [List.map_cons, List.flatMap_cons, List.take_append, o.option.length_encode, fitting]
    split
    · rename_i hfits
      have hread := raOptions_append [o.option]
        (((os.map WireOption.option).flatMap RaOption.encode).take (room - o.option.size))
      rw [List.flatMap_singleton] at hread
      rw [List.take_of_length_le (le_of_eq_of_le o.option.length_encode hfits), hread, raOptions_cut os, List.map_cons]
      rfl
    · rename_i hcut
      rw [Nat.not_le] at hcut
      rw [Nat.sub_eq_zero_of_le (Nat.le_of_lt hcut), List.take_zero, List.append_nil, raOptions_eq, readOption_cut hcut]
      rfl

theorem packetOptions_short {data : List UInt8} (h : data.length < 16) : packetOptions data = [] :=
  if_neg fun hra => Nat.not_lt.2 hra.1 h

/-- **What is read of a packet that is cut off** after `n` bytes: the /64 of the first autonomous global prefix among
the options that lie within these bytes. -/
theorem parseRaPacket_cut (h : RaHeader) (os : List WireOption) (n : Nat) :
    parseRaPacket ((encodeRa h os).take n) = .returned ((fitting os (n - 16)).findSome? WireOption.announced) := by
  have hoptions : packetOptions ((encodeRa h os).take n) = (fitting os (n - 16)).map WireOption.option := by
    rcases Nat.lt_or_ge n 16 with hn | hn
    · -- the header itself is cut off
      have hshort : ((encodeRa h os).take n).length < 16 := by
        rw [List.length_take]
        omega
      rw [packetOptions_short hshort, Nat.sub_eq_zero_of_le (Nat.le_of_lt hn), fitting_zero]
      rfl
    · rw [encodeRa, List.take_append, h.length_encode, List.take_of_length_le (le_of_eq_of_le h.length_encode hn),
        packetOptions_encode, raOptions_cut]
  rw [parseRaPacket_packetOptions, hoptions, List.findSome?_map]
  congr 2
  exact funext WireOption.announced_option

end DdnsIpv6.Prefix.Ra

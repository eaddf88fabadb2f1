import DdnsIpv6.Prefix
import Mathlib.Tactic.Common

/-!
# `RaListener`: the prefix of the last Router Advertisement

`parseRaPacket` is the loop of the source, with its running offset and its index expressions: an index out of bounds
and a difference below zero are panics. `raOptions` is what the packet says: the sequence of its options. The loop never
panics, ends, and finds the first option that announces a global prefix for autonomous configuration
(`parseRaPacket_eq`).
-/

namespace DdnsIpv6.Prefix.Ra

open Lib

abbrev isGlobalUnicast := Prefix.isGlobalUnicast

abbrev maskTo64 := Prefix.maskTo64

/-! ## The parser of the source -/

/-- `u16::from_be_bytes` -/
def fromBeBytes (hi lo : UInt8) : UInt16 := UInt16.ofNat (hi.toNat * 256 + lo.toNat)

/-- The loop that reads the eight segments of a prefix; `none` is an index out of bounds. -/
def readSegments (data : List UInt8) (start : Nat) : Option (List UInt16) :=
  (List.range 8).mapM fun i => do
    let hi ← data[start + i * 2]?
    let lo ← data[start + i * 2 + 1]?
    some (fromBeBytes hi lo)

/-- How one run of the loop body ends. -/
inductive RaStep where
  | panicked
  | done (r : Option Ipv6Addr)
  | next (offset : Nat)
  deriving DecidableEq, Repr

/-- The loop body at `offset`, with the loop condition. -/
def raStep (data : List UInt8) (offset : Nat) : RaStep :=
  if data.length < offset + 2 then .done none
  else match data[offset]?, data[offset + 1]? with
    | some optType, some optLen =>
      let offset := offset + 2
      if optLen = 0 then .done none
      else if optLen.toNat * 8 < 2 then .panicked
      else
        let optDataLen := optLen.toNat * 8 - 2
        if data.length < offset + optDataLen then .done none
        else if optType = 3 then
          if optDataLen < 30 then .next (offset + optDataLen)
          else match data[offset + 1]? with
            | none => .panicked
            | some flags =>
              if flags &&& 0x40 = 0 then .next (offset + optDataLen)
              else
                let prefixStart := offset + 14
                if data.length < prefixStart + 16 then .done none
                else match readSegments data prefixStart with
                  | none => .panicked
                  | some segments =>
                    let pfx := Ipv6Addr.ofSegments segments
                    if isGlobalUnicast pfx then .done (some (maskTo64 pfx)) else .next (offset + optDataLen)
        else .next (offset + optDataLen)
    | _, _ => .panicked

inductive RaResult where
  | panicked
  /-- The fuel of the loop is used up. -/
  | unfinished
  | returned (r : Option Ipv6Addr)
  deriving DecidableEq, Repr

/-- The loop. -/
def raLoop (data : List UInt8) : Nat → Nat → RaResult
  | 0, _ => .unfinished
  | fuel + 1, offset =>
    match raStep data offset with
    | .panicked => .panicked
    | .done r => .returned r
    | .next offset => raLoop data fuel offset

/-- Parse an RA packet and extract the first valid PIO prefix. -/
def parseRaPacket (data : List UInt8) : RaResult :=
  if data.length < 16 then .returned none
  else match data[0]? with
    | none => .panicked
    | some t => if t ≠ 134 then .returned none else raLoop data data.length 16

/-! ## The options of a packet -/

/-- An option: its type, its length in units of 8 bytes, and the bytes after these two. -/
structure RaOption where
  type : UInt8
  len : UInt8
  body : List UInt8
  length_body : body.length + 2 = 8 * len.toNat

/-- The bytes of an option. -/
def RaOption.size (o : RaOption) : Nat := 8 * o.len.toNat

/-- Read an option off the front. -/
def readOption : List UInt8 → Option RaOption
  | type :: len :: rest =>
    if h : 0 < len.toNat ∧ 8 * len.toNat ≤ rest.length + 2 then
      some ⟨type, len, rest.take (8 * len.toNat - 2), by rw [List.length_take]; omega⟩
    else none
  | _ => none

theorem RaOption.size_pos (o : RaOption) : 0 < o.size := by
  have := o.length_body
  unfold size
  omega

theorem readOption_eq_some {bs : List UInt8} {o : RaOption} (h : readOption bs = some o) :
    ∃ rest, bs = o.type :: o.len :: rest ∧ 0 < o.len.toNat ∧ o.size ≤ bs.length ∧ o.body = rest.take (o.size - 2) := by
  match bs, h with
  | type :: len :: rest, h =>
    rw [readOption] at h
    split at h
    · rename_i hl
      cases h
      exact ⟨rest, rfl, hl.1, by simpa [RaOption.size] using hl.2, rfl⟩
    · cases h

/-- The longest sequence of options that can be read. -/
def raOptions (bs : List UInt8) : List RaOption :=
  match _h : readOption bs with
  | none => []
  | some o => o :: raOptions (bs.drop o.size)
  termination_by bs.length
  decreasing_by
    obtain ⟨_, _, _, hsize, _⟩ := readOption_eq_some _h
    have := o.size_pos
    rw [List.length_drop]
    omega

theorem raOptions_eq (bs : List UInt8) : raOptions bs = match readOption bs with
    | none => []
    | some o => o :: raOptions (bs.drop o.size) := by
  rw [raOptions]
  split <;> rename_i h <;> rw [h]

/-- The big-endian segments of a string of bytes. -/
def beSegments : List UInt8 → List UInt16
  | hi :: lo :: rest => fromBeBytes hi lo :: beSegments rest
  | _ => []

/-- The prefix field of a Prefix Information Option. -/
def RaOption.prefixField (o : RaOption) : Ipv6Addr := Ipv6Addr.ofSegments (beSegments ((o.body.drop 14).take 16))

/-- A Prefix Information Option with the autonomous flag. -/
structure RaOption.AutonomousPio (o : RaOption) : Prop where
  type : o.type = 3
  len : 4 ≤ o.len.toNat
  flag : ∃ flags, o.body[1]? = some flags ∧ flags &&& 0x40 ≠ 0

/-- What an option says about the prefix. -/
def RaOption.announced (o : RaOption) : Option Ipv6Addr :=
  if o.type = 3 ∧ 4 ≤ o.len.toNat ∧ (o.body[1]?.getD 0) &&& 0x40 ≠ 0 ∧ isGlobalUnicast o.prefixField then
    some (maskTo64 o.prefixField)
  else none

theorem RaOption.announced_eq_some {o : RaOption} {p : Ipv6Addr} :
    o.announced = some p ↔ o.AutonomousPio ∧ isGlobalUnicast o.prefixField = true ∧ p = maskTo64 o.prefixField := by
  unfold announced
  split
  · rename_i h
    obtain ⟨ht, hl, hf, hg⟩ := h
    have hflag : ∃ flags, o.body[1]? = some flags ∧ flags &&& 0x40 ≠ 0 := by
      cases hb : o.body[1]? with
      | none => simp [hb] at hf
      | some flags => exact ⟨flags, rfl, by simpa [hb] using hf⟩
    refine ⟨fun hp => ⟨⟨ht, hl, hflag⟩, hg, (Option.some.inj hp).symm⟩, fun hp => by rw [hp.2.2]⟩
  · rename_i h
    refine ⟨(fun hp => nomatch hp), fun hp => (h ⟨hp.1.type, hp.1.len, ?_, hp.2.1⟩).elim⟩
    obtain ⟨flags, hb, hf⟩ := hp.1.flag
    rw [hb]
    exact hf

/-! ## The parser reads the options -/

theorem sixteen_bytes {bs : List UInt8} (h : 16 ≤ bs.length) : ∃ b0 b1 b2 b3 b4 b5 b6 b7 b8 b9 b10 b11 b12 b13 b14 b15
    rest, bs = b0 :: b1 :: b2 :: b3 :: b4 :: b5 :: b6 :: b7 :: b8 :: b9 :: b10 :: b11 :: b12 :: b13 :: b14 :: b15 ::
      rest := by
  match bs, h with
  | _ :: _ :: _ :: _ :: _ :: _ :: _ :: _ :: _ :: _ :: _ :: _ :: _ :: _ :: _ :: _ :: _, _ =>
    exact ⟨_, _, _, _, _, _, _, _, _, _, _, _, _, _, _, _, _, rfl⟩

/-- Sixteen bytes are eight segments. -/
theorem readSegments_eq {data : List UInt8} {start : Nat} (h : start + 16 ≤ data.length) :
    readSegments data start = some (beSegments ((data.drop start).take 16)) := by
  obtain ⟨bs, hbs⟩ : ∃ bs, bs = data.drop start := ⟨_, rfl⟩
  have hlen : 16 ≤ bs.length := by rw [hbs, List.length_drop]; omega
  have hget : ∀ i, data[start + i]? = bs[i]? := fun i => by rw [hbs, List.getElem?_drop]
  have hrange : List.range 8 = [0, 1, 2, 3, 4, 5, 6, 7] := rfl
  simp only [readSegments, hrange, Nat.add_assoc, hget, ← hbs]
  obtain ⟨_, _, _, _, _, _, _, _, _, _, _, _, _, _, _, _, _, rfl⟩ := sixteen_bytes hlen
  rfl

theorem readOption_eq_none {bs : List UInt8} : readOption bs = none ↔
    ∀ type len rest, bs = type :: len :: rest → len.toNat = 0 ∨ rest.length + 2 < 8 * len.toNat := by
  match bs with
  | [] => simp [readOption]
  | [_] => simp [readOption]
  | type :: len :: rest =>
    simp only [readOption]
    split
    · rename_i h
      simp only [reduceCtorEq, List.cons.injEq, false_iff, not_forall]
      exact ⟨type, len, rest, ⟨rfl, rfl, rfl⟩, by omega⟩
    · rename_i h
      simp only [List.cons.injEq, true_iff]
      rintro t l r ⟨rfl, rfl, rfl⟩
      omega

/-- The bytes from an offset on, with their indices in the data. -/
theorem drop_spec (data : List UInt8) {offset : Nat} (h : offset ≤ data.length) :
    data.length = offset + (data.drop offset).length ∧ ∀ i, data[offset + i]? = (data.drop offset)[i]? := by
  refine ⟨?_, fun i => List.getElem?_drop.symm⟩
  rw [List.length_drop]
  omega

/-- Where no option can be read the loop ends. -/
theorem raStep_of_none {data : List UInt8} {offset : Nat} (h : offset ≤ data.length)
    (ho : readOption (data.drop offset) = none) : raStep data offset = .done none := by
  obtain ⟨hlen, hget⟩ := drop_spec data h
  rw [readOption_eq_none] at ho
  unfold raStep
  by_cases hshort : data.length < offset + 2
  · rw [if_pos hshort]
  · generalize data.drop offset = bs at hlen hget ho
    match bs, hlen, hget, ho with
    | type :: len :: rest, hlen, hget, ho =>
      simp only [List.length_cons] at hlen
      have h0 := hget 0
      have h1 := hget 1
      simp only [Nat.add_zero, List.getElem?_cons_zero, List.getElem?_cons_succ] at h0 h1
      rw [if_neg hshort, h0, h1]
      have hz : len = 0 ↔ len.toNat = 0 := by rw [← UInt8.toNat_inj]; rfl
      rcases ho type len rest rfl with hl | hl
      · simp only [hz.2 hl, if_true]
      · have hne : ¬len = 0 := fun hc => by have := hz.1 hc; omega
        simp only [if_neg hne, if_neg (show ¬len.toNat * 8 < 2 by omega)]
        rw [if_pos (by omega)]
    | [], hlen, _, _ => exact absurd (by simp only [List.length_nil] at hlen; omega) hshort
    | [_], hlen, _, _ => exact absurd (by simp only [List.length_singleton] at hlen; omega) hshort

/-- An option is read, and the loop ends if it announces a prefix. -/
theorem raStep_of_some {data : List UInt8} {offset : Nat} {o : RaOption} (h : offset ≤ data.length)
    (ho : readOption (data.drop offset) = some o) :
    raStep data offset = (o.announced.elim (.next (offset + o.size)) fun p => .done (some p)) := by
  obtain ⟨hlen, hget⟩ := drop_spec data h
  obtain ⟨rest, hrest, hpos, hsize, hbody⟩ := readOption_eq_some ho
  have hl := o.length_body
  simp only [RaOption.size] at hsize hbody ⊢
  have h0 := hget 0
  have h1 := hget 1
  rw [hrest] at h0 h1
  simp only [Nat.add_zero, List.getElem?_cons_zero, List.getElem?_cons_succ] at h0 h1
  have hz : ¬o.len = 0 := fun hc => by rw [hc] at hpos; exact absurd hpos (by decide)
  have hnext : offset + 2 + (o.len.toNat * 8 - 2) = offset + 8 * o.len.toNat := by omega
  unfold raStep
  rw [if_neg (by omega), h0, h1]
  simp only [if_neg hz, if_neg (show ¬o.len.toNat * 8 < 2 by omega), hnext]
  rw [if_neg (by omega)]
  by_cases ht : o.type = 3
  · by_cases h4 : 4 ≤ o.len.toNat
    · -- a Prefix Information Option: its flags and its prefix are inside
      have hflags : data[offset + 2 + 1]? = o.body[1]? := by
        rw [Nat.add_assoc, hget 3, hrest, hbody, List.getElem?_take_of_lt (by omega)]
        rfl
      obtain ⟨flags, hf⟩ : ∃ flags, o.body[1]? = some flags :=
        ⟨_, List.getElem?_eq_getElem (show 1 < o.body.length by omega)⟩
      have hseg : readSegments data (offset + 2 + 14) = some (beSegments ((o.body.drop 14).take 16)) := by
        rw [readSegments_eq (by omega), Nat.add_assoc, ← List.drop_drop, hrest, hbody]
        congr 2
        rw [List.drop_take, List.take_take, Nat.min_eq_left (by omega)]
        rfl
      rw [if_pos ht, if_neg (by omega), hflags, hf]
      simp only [hseg]
      by_cases ha : flags &&& 0x40 = 0
      · rw [if_pos ha]
        simp [RaOption.announced, hf, ha]
      · rw [if_neg ha, if_neg (by omega)]
        simp only [RaOption.announced, RaOption.prefixField, hf, Option.getD_some, ht, h4]
        by_cases hg : isGlobalUnicast (Ipv6Addr.ofSegments (beSegments ((o.body.drop 14).take 16))) <;> simp [hg, ha]
    · rw [if_pos ht, if_pos (by omega)]
      simp [RaOption.announced, h4]
  · rw [if_neg ht]
    simp [RaOption.announced, ht]

/-- **The loop** with enough fuel returns what the first announcing option says. -/
theorem raLoop_eq {data : List UInt8} : ∀ {fuel offset : Nat}, offset ≤ data.length → data.length - offset < fuel →
    raLoop data fuel offset = .returned ((raOptions (data.drop offset)).findSome? RaOption.announced)
  | 0, _, _, hf => absurd hf (Nat.not_lt_zero _)
  | fuel + 1, offset, h, hf => by
    rw [raLoop, raOptions_eq]
    cases ho : readOption (data.drop offset) with
    | none =>
      rw [raStep_of_none h ho]
      rfl
    | some o =>
      obtain ⟨_, _, _, hsize, _⟩ := readOption_eq_some ho
      have hpos := o.size_pos
      simp only [List.length_drop] at hsize
      rw [raStep_of_some h ho]
      simp only [List.findSome?_cons]
      cases o.announced with
      | some p => rfl
      | none =>
        simp only [Option.elim_none]
        rw [raLoop_eq (by omega) (by omega), List.drop_drop]

/-- **The parser** returns on every packet, and what it returns is what the options of the packet say. -/
theorem parseRaPacket_eq (data : List UInt8) : parseRaPacket data = .returned
    (if 16 ≤ data.length ∧ data[0]? = some 134 then (raOptions (data.drop 16)).findSome? RaOption.announced
    else none) := by
  unfold parseRaPacket
  by_cases h : data.length < 16
  · rw [if_pos h, if_neg (by omega)]
  · rw [if_neg h]
    cases h0 : data[0]? with
    | none =>
      rw [List.getElem?_eq_none_iff] at h0
      omega
    | some t =>
      by_cases ht : t = 134
      · subst ht
        simp only [ne_eq, not_true_eq_false, if_false, and_true, if_pos (Nat.not_lt.1 h)]
        exact raLoop_eq (by omega) (by omega)
      · simp only [ne_eq, ht, not_false_eq_true, if_true, Option.some.injEq, and_false, if_false]

/-! ## The listener -/

/-- The prefix that the listener takes from a packet. -/
def packetPrefix (data : List UInt8) : Option Ipv6Addr :=
  match parseRaPacket data with
  | .returned r => r
  | _ => none

/-- The prefix announced by a packet is the /64 of a global prefix of one of its autonomous options. -/
theorem packetPrefix_eq_some {data : List UInt8} {p : Ipv6Addr} (h : packetPrefix data = some p) :
    16 ≤ data.length ∧ data[0]? = some 134 ∧
      ∃ o ∈ raOptions (data.drop 16), o.AutonomousPio ∧ DetectedFrom o.prefixField p := by
  rw [packetPrefix, parseRaPacket_eq] at h
  simp only at h
  split at h
  · rename_i hra
    refine ⟨hra.1, hra.2, ?_⟩
    obtain ⟨o, ho, ha⟩ := List.exists_of_findSome?_eq_some h
    obtain ⟨hp, hg, rfl⟩ := RaOption.announced_eq_some.1 ha
    exact ⟨o, ho, hp, detectedFrom_mask hg⟩
  · cases h

/-- `run_ra_listener` on one received packet: `last_prefix` afterwards, and whether a change is sent. -/
def receive (data : List UInt8) (lastPrefix : Option Ipv6Addr) : Option Ipv6Addr × Bool :=
  match packetPrefix data with
  | some p => (some p, true)
  | none => (lastPrefix, false)

/-- `PrefixDetector::detect` -/
def detect (lastPrefix : Option Ipv6Addr) : Except Error Ipv6Addr :=
  match lastPrefix with
  | some p => .ok p
  | none =>
    .error (.prefixDetection "RA listener: no prefix received yet; waiting for Router Advertisement")

end DdnsIpv6.Prefix.Ra

import DdnsIpv6.Prefix.Ra

/-!
# The option format of Router Advertisements

The bytes of an option (`RaOption.encode`) and of a header are written down once more, the other way round. Reading
undoes writing (`raOptions_append`), the options of a string of bytes are characterised without a reader (`OptionsOf`,
`optionsOf_iff`), and the parser is exact for the format: it returns the /64 of the first option that qualifies
(`parseRaPacket_exact`). The lifetimes of a prefix are part of the format but not of the parser: a live prefix is
preferred only if it comes first (`parseRaPacket_live_iff`).
-/

namespace DdnsIpv6.Prefix.Ra

open Lib

/-! ## Options and headers as bytes -/

/-- The number that a string of bytes is, most significant byte first. -/
def beNat (bs : List UInt8) : Nat := bs.foldl (fun n b => n * 256 + b.toNat) 0

def RaOption.encode (o : RaOption) : List UInt8 := o.type :: o.len :: o.body

/-- The 16 bytes before the options of a Router Advertisement. -/
structure RaHeader where
  fields : List UInt8
  length_fields : fields.length = 15

def RaHeader.encode (h : RaHeader) : List UInt8 := 134 :: h.fields

theorem RaOption.length_encode (o : RaOption) : o.encode.length = o.size := by
  rw [size, ← o.length_body]
  rfl

@[simp] theorem RaHeader.length_encode (h : RaHeader) : h.encode.length = 16 := by
  rw [encode, List.length_cons, h.length_fields]

/-- An option that is read back from its bytes, whatever follows them. -/
theorem readOption_encode (o : RaOption) (rest : List UInt8) : readOption (o.encode ++ rest) = some o := by
  obtain ⟨type, len, body, hbody⟩ := o
  have hlen : 8 * len.toNat - 2 = body.length := by omega
  have hfits : 0 < len.toNat ∧ 8 * len.toNat ≤ (body ++ rest).length + 2 := by
    rw [List.length_append]
    omega
  simp only [RaOption.encode, List.cons_append, readOption, dif_pos hfits, hlen, List.take_left']

/-- Where an option is read, its bytes are. -/
theorem eq_encode_append {bs : List UInt8} {o : RaOption} (h : readOption bs = some o) :
    bs = o.encode ++ bs.drop o.size := by
  obtain ⟨rest, rfl, hpos, -, hbody⟩ := readOption_eq_some h
  obtain ⟨n, hn⟩ : ∃ n, o.size = n + 2 := ⟨o.size - 2, by unfold RaOption.size; omega⟩
  rw [hn, Nat.add_sub_cancel] at hbody
  rw [hn, RaOption.encode, hbody, List.drop_succ_cons, List.drop_succ_cons, List.cons_append, List.cons_append,
    List.take_append_drop]

/-- Reading undoes writing, up to the bytes after the options. -/
theorem raOptions_append (os : List RaOption) (rest : List UInt8) :
    raOptions (os.flatMap RaOption.encode ++ rest) = os ++ raOptions rest := by
  induction os with
  | nil => rfl
  | cons o os ih =>
    rw [List.flatMap_cons, List.append_assoc, raOptions_eq, readOption_encode]
    simp only [← o.length_encode, List.drop_left, ih, List.cons_append]

/-- The options `os` are at the front of `bs`, and no option is at the front of the rest. -/
def OptionsOf (bs : List UInt8) (os : List RaOption) : Prop :=
  ∃ rest, bs = os.flatMap RaOption.encode ++ rest ∧ ∀ (o : RaOption) (rest' : List UInt8), rest ≠ o.encode ++ rest'

/-- There is no option where none is read. -/
theorem raOptions_eq_nil_iff {bs : List UInt8} :
    raOptions bs = [] ↔ ∀ (o : RaOption) (rest : List UInt8), bs ≠ o.encode ++ rest := by
  rw [raOptions_eq]
  constructor
  · rintro h o rest rfl
    rw [readOption_encode] at h
    cases h
  · intro h
    cases ho : readOption bs with
    | none => rfl
    | some o => exact absurd (eq_encode_append ho) (h o _)

theorem raOptions_flatMap (os : List RaOption) : raOptions (os.flatMap RaOption.encode) = os := by
  rw [← List.append_nil (os.flatMap _), raOptions_append,
    raOptions_eq_nil_iff.2 fun _ _ h => List.cons_ne_nil _ _ h.symm, List.append_nil]

theorem optionsOf_raOptions (bs : List UInt8) : OptionsOf bs (raOptions bs) := by
  rw [raOptions_eq]
  cases ho : readOption bs with
  | none =>
    refine ⟨bs, rfl, raOptions_eq_nil_iff.1 ?_⟩
    rw [raOptions_eq, ho]
  | some o =>
    have hshorter : bs.length - o.size < bs.length := by
      obtain ⟨_, _, _, hsize, _⟩ := readOption_eq_some ho
      have := o.size_pos
      omega
    obtain ⟨rest, hrest, hmax⟩ := optionsOf_raOptions (bs.drop o.size)
    refine ⟨rest, ?_, hmax⟩
    rw [List.flatMap_cons, List.append_assoc, ← hrest]
    exact eq_encode_append ho
  termination_by bs.length

/-- **The options of a string of bytes** are the ones that are read. -/
theorem optionsOf_iff {bs : List UInt8} {os : List RaOption} : OptionsOf bs os ↔ os = raOptions bs := by
  constructor
  · rintro ⟨rest, rfl, hmax⟩
    rw [raOptions_append, raOptions_eq_nil_iff.2 hmax, List.append_nil]
  · rintro rfl
    exact optionsOf_raOptions bs

/-! ## Qualifying options -/

/-- A Prefix Information Option for autonomous configuration whose prefix lies in `2000::/3`. -/
structure RaOption.Qualifies (o : RaOption) : Prop where
  pio : o.AutonomousPio
  global : o.prefixField.GlobalUnicast

/-- The first option that qualifies. -/
def FirstQualifying (os : List RaOption) (o : RaOption) : Prop :=
  ∃ before after, os = before ++ o :: after ∧ (∀ o' ∈ before, ¬o'.Qualifies) ∧ o.Qualifies

theorem RaOption.announced_eq_some_iff {o : RaOption} {p : Ipv6Addr} :
    o.announced = some p ↔ o.Qualifies ∧ p = maskTo64 o.prefixField := by
  rw [announced_eq_some, isGlobalUnicast_iff, ← and_assoc]
  exact and_congr_left fun _ => ⟨fun h => ⟨h.1, h.2⟩, fun h => ⟨h.pio, h.global⟩⟩

theorem RaOption.announced_eq_none_iff {o : RaOption} : o.announced = none ↔ ¬o.Qualifies := by
  rw [Option.eq_none_iff_forall_ne_some]
  exact ⟨fun h hq => h _ (announced_eq_some_iff.2 ⟨hq, rfl⟩), fun h p hp => h (announced_eq_some_iff.1 hp).1⟩

/-- What the loop looks for. -/
theorem findSome?_announced {os : List RaOption} {p : Ipv6Addr} :
    os.findSome? RaOption.announced = some p ↔ ∃ o, FirstQualifying os o ∧ p = maskTo64 o.prefixField := by
  rw [List.findSome?_eq_some_iff]
  constructor
  · rintro ⟨before, o, after, hos, ho, hbefore⟩
    obtain ⟨hq, hp⟩ := RaOption.announced_eq_some_iff.1 ho
    exact ⟨o, ⟨before, after, hos, fun o' h => RaOption.announced_eq_none_iff.1 (hbefore o' h), hq⟩, hp⟩
  · rintro ⟨o, ⟨before, after, hos, hbefore, hq⟩, hp⟩
    exact ⟨before, o, after, hos, RaOption.announced_eq_some_iff.2 ⟨hq, hp⟩,
      fun o' h => RaOption.announced_eq_none_iff.2 (hbefore o' h)⟩

theorem FirstQualifying.append {os : List RaOption} {o : RaOption} (h : FirstQualifying os o) (os' : List RaOption) :
    FirstQualifying (os ++ os') o := by
  obtain ⟨before, after, rfl, hbefore, hq⟩ := h
  exact ⟨before, after ++ os', by rw [List.append_assoc, List.cons_append], hbefore, hq⟩

theorem FirstQualifying.mem {os : List RaOption} {o : RaOption} (h : FirstQualifying os o) : o ∈ os := by
  obtain ⟨before, after, rfl, -, -⟩ := h
  exact List.mem_append_right _ List.mem_cons_self

theorem FirstQualifying.qualifies {os : List RaOption} {o : RaOption} (h : FirstQualifying os o) : o.Qualifies := by
  obtain ⟨before, after, rfl, -, hq⟩ := h
  exact hq

/-! ## The parser is exact -/

/-- The options of a packet: none without the header of a Router Advertisement. -/
def packetOptions (data : List UInt8) : List RaOption :=
  if 16 ≤ data.length ∧ data[0]? = some 134 then raOptions (data.drop 16) else []

theorem parseRaPacket_packetOptions (data : List UInt8) :
    parseRaPacket data = .returned ((packetOptions data).findSome? RaOption.announced) := by
  rw [parseRaPacket_eq, packetOptions]
  split <;> rfl

theorem parseRaPacket_eq_some_iff {data : List UInt8} {q : Ipv6Addr} :
    parseRaPacket data = .returned (some q) ↔
      ∃ o, FirstQualifying (packetOptions data) o ∧ q = maskTo64 o.prefixField := by
  rw [parseRaPacket_packetOptions, RaResult.returned.injEq, findSome?_announced]

@[simp] theorem packetOptions_encode (h : RaHeader) (bs : List UInt8) :
    packetOptions (h.encode ++ bs) = raOptions bs := by
  have hlen : 16 ≤ (h.encode ++ bs).length := by
    rw [List.length_append, h.length_encode]
    omega
  rw [packetOptions, if_pos ⟨hlen, rfl⟩, List.drop_left' h.length_encode]

/-- The header decides whether there are options, and what follows it which. -/
theorem packetOptions_take {data : List UInt8} (h : 16 ≤ data.length) (bs : List UInt8) :
    packetOptions (data.take 16 ++ bs) = if data[0]? = some 134 then raOptions bs else [] := by
  have hlen : (data.take 16).length = 16 := List.length_take_of_le h
  have hhead : (data.take 16 ++ bs)[0]? = data[0]? := by
    rw [List.getElem?_append_left (by omega), List.getElem?_take_of_lt (by omega)]
  rw [packetOptions, hhead, List.drop_left' hlen]
  simp only [List.length_append, hlen, Nat.le_add_right, true_and]

theorem toNat_fromBeBytes (hi lo : UInt8) : (fromBeBytes hi lo).toNat = hi.toNat * 256 + lo.toNat := by
  have := hi.toNat_lt
  have := lo.toNat_lt
  rw [fromBeBytes, UInt16.toNat_ofNat_of_lt' (by simp only [UInt16.size]; omega)]

/-- The prefix of a long enough option is a big-endian number of 128 bits. -/
theorem RaOption.prefixField_eq (o : RaOption) (h : 4 ≤ o.len.toNat) :
    o.prefixField.upper64 * 2 ^ 64 + o.prefixField.lower64 = beNat ((o.encode.drop 16).take 16) := by
  obtain ⟨bs, hbs⟩ : ∃ bs, bs = o.body.drop 14 := ⟨_, rfl⟩
  have hlen : 16 ≤ bs.length := by
    have := o.length_body
    rw [hbs, List.length_drop]
    omega
  rw [prefixField, encode, List.drop_succ_cons, List.drop_succ_cons, ← hbs]
  obtain ⟨_, _, _, _, _, _, _, _, _, _, _, _, _, _, _, _, _, rfl⟩ := sixteen_bytes hlen
  simp only [List.take_succ_cons, List.take_zero, beSegments, Ipv6Addr.ofSegments, Ipv6Addr.upper64,
    Ipv6Addr.lower64, Ipv6Addr.half, toNat_fromBeBytes, beNat, List.foldl_cons, List.foldl_nil]
  omega

/-- The prefix at bytes 16 to 31 of an option, as a number. -/
def RaOption.prefixNumber (o : RaOption) : Nat := beNat ((o.encode.drop 16).take 16)

/-- `q` is this prefix with the lower 64 bits cleared. -/
structure RaOption.Announces (o : RaOption) (q : Ipv6Addr) : Prop where
  upper : q.upper64 = o.prefixNumber / 2 ^ 64
  lower : q.lower64 = 0

theorem RaOption.prefixNumber_div (o : RaOption) (h : 4 ≤ o.len.toNat) :
    o.prefixNumber / 2 ^ 64 = o.prefixField.upper64 := by
  have hlt := o.prefixField.lower64_lt
  rw [prefixNumber, ← o.prefixField_eq h]
  omega

/-- A qualifying option in its bytes. -/
theorem RaOption.qualifies_iff (o : RaOption) : o.Qualifies ↔ o.type = 3 ∧ 4 ≤ o.len.toNat ∧
    (∃ flags, o.encode[3]? = some flags ∧ flags &&& 0x40 ≠ 0) ∧ o.prefixNumber / 2 ^ 125 = 1 := by
  have hglobal : 4 ≤ o.len.toNat → (o.prefixField.GlobalUnicast ↔ o.prefixNumber / 2 ^ 125 = 1) := by
    intro hlen
    rw [Ipv6Addr.globalUnicast_iff_upper64, ← o.prefixNumber_div hlen]
    omega
  constructor
  · rintro ⟨⟨htype, hlen, hflag⟩, hprefix⟩
    exact ⟨htype, hlen, hflag, (hglobal hlen).1 hprefix⟩
  · rintro ⟨htype, hlen, hflag, hprefix⟩
    exact ⟨⟨htype, hlen, hflag⟩, (hglobal hlen).2 hprefix⟩

theorem RaOption.Qualifies.announces_iff {o : RaOption} (h : o.Qualifies) {q : Ipv6Addr} :
    o.Announces q ↔ q = maskTo64 o.prefixField := by
  constructor
  · rintro ⟨hupper, hlower⟩
    rw [o.prefixNumber_div h.pio.len] at hupper
    exact Ipv6Addr.ext_halves hupper (hlower.trans (maskTo64_lower64 _).symm)
  · rintro rfl
    exact ⟨(o.prefixNumber_div h.pio.len).symm, maskTo64_lower64 _⟩

/-- The options of a packet that starts with a qualifying option after others that do not qualify. -/
theorem firstQualifying_encode {bs rest : List UInt8} {os : List RaOption} {o : RaOption}
    (h : bs = os.flatMap RaOption.encode ++ o.encode ++ rest) (hos : ∀ o' ∈ os, ¬o'.Qualifies) (ho : o.Qualifies) :
    FirstQualifying (raOptions bs) o := by
  have hbs : bs = (os ++ [o]).flatMap RaOption.encode ++ rest := by
    rw [h, List.flatMap_append, List.flatMap_singleton]
  rw [hbs, raOptions_append]
  exact FirstQualifying.append ⟨os, [], rfl, hos, ho⟩ _

theorem packetOptions_eq_some {data : List UInt8} (h : 16 ≤ data.length) (h0 : data[0]? = some 134) :
    packetOptions data = raOptions (data.drop 16) := if_pos ⟨h, h0⟩

theorem FirstQualifying.ra {data : List UInt8} {o : RaOption} (h : FirstQualifying (packetOptions data) o) :
    16 ≤ data.length ∧ data[0]? = some 134 := by
  by_contra hra
  have hmem := h.mem
  rw [packetOptions, if_neg hra] at hmem
  exact List.not_mem_nil hmem

/-- Without a qualifying option the parser returns nothing. -/
theorem parseRaPacket_eq_none {data : List UInt8} (h : ∀ o ∈ packetOptions data, ¬o.Qualifies) :
    parseRaPacket data = .returned none := by
  rw [parseRaPacket_packetOptions, List.findSome?_eq_none_iff.2 fun o ho => RaOption.announced_eq_none_iff.2 (h o ho)]

/-- **The parser is exact for the format.** It returns a prefix just if the packet is a Router Advertisement with a
qualifying option, and then the /64 of the first one, whatever follows that option; else it returns nothing. -/
theorem parseRaPacket_exact (data : List UInt8) :
    (∀ o : RaOption, o.Qualifies ↔ o.type = 3 ∧ 4 ≤ o.len.toNat ∧
      (∃ flags, o.encode[3]? = some flags ∧ flags &&& 0x40 ≠ 0) ∧ o.prefixNumber / 2 ^ 125 = 1) ∧
    (∀ q, parseRaPacket data = .returned (some q) ↔ 16 ≤ data.length ∧ data[0]? = some 134 ∧
      ∃ os o, OptionsOf (data.drop 16) os ∧ FirstQualifying os o ∧ o.Announces q) ∧
    ((¬∃ q, parseRaPacket data = .returned (some q)) → parseRaPacket data = .returned none) ∧
    (∀ (h : RaHeader) (os : List RaOption), data = h.encode ++ os.flatMap RaOption.encode →
      (∀ o, FirstQualifying os o → ∃ q, parseRaPacket data = .returned (some q) ∧ o.Announces q) ∧
      ((∀ o ∈ os, ¬o.Qualifies) → parseRaPacket data = .returned none)) ∧
    ∀ (os : List RaOption) (o : RaOption) (rest : List UInt8),
      data.drop 16 = os.flatMap RaOption.encode ++ o.encode ++ rest → (∀ o' ∈ os, ¬o'.Qualifies) → o.Qualifies →
        ∀ rest', parseRaPacket (data.take 16 ++ (os.flatMap RaOption.encode ++ o.encode ++ rest')) =
          parseRaPacket data := by
  refine ⟨RaOption.qualifies_iff, fun q => ?_, fun h => ?_, fun h os hdata => ?_,
    fun os o rest hrest hos ho rest' => ?_⟩
  · rw [parseRaPacket_eq_some_iff]
    constructor
    · rintro ⟨o, ho, hq⟩
      obtain ⟨hlen, h0⟩ := ho.ra
      rw [packetOptions_eq_some hlen h0] at ho
      exact ⟨hlen, h0, _, o, optionsOf_raOptions _, ho, ho.qualifies.announces_iff.2 hq⟩
    · rintro ⟨hlen, h0, os, o, hos, ho, hq⟩
      rw [optionsOf_iff.1 hos, ← packetOptions_eq_some hlen h0] at ho
      exact ⟨o, ho, ho.qualifies.announces_iff.1 hq⟩
  · rw [parseRaPacket_packetOptions] at h ⊢
    cases hr : (packetOptions data).findSome? RaOption.announced with
    | none => rfl
    | some q => exact absurd ⟨q, by rw [hr]⟩ h
  · have hoptions : packetOptions data = os := by
      rw [hdata, packetOptions_encode, raOptions_flatMap]
    refine ⟨fun o ho => ⟨_, ?_, ho.qualifies.announces_iff.2 rfl⟩, fun hnone => parseRaPacket_eq_none ?_⟩
    · rw [parseRaPacket_eq_some_iff]
      exact ⟨o, hoptions.symm ▸ ho, rfl⟩
    · rwa [hoptions]
  · have hlen : 16 ≤ data.length := by
      have := congrArg List.length hrest
      simp only [List.length_drop, List.length_append, RaOption.encode, List.length_cons] at this
      omega
    have hdata := packetOptions_take hlen (data.drop 16)
    rw [List.take_append_drop] at hdata
    by_cases h0 : data[0]? = some 134
    · -- the option is the first that qualifies in both packets
      rw [if_pos h0] at hdata
      have hfirst : parseRaPacket data = .returned (some (maskTo64 o.prefixField)) := by
        rw [parseRaPacket_eq_some_iff, hdata]
        exact ⟨o, firstQualifying_encode hrest hos ho, rfl⟩
      rw [hfirst, parseRaPacket_eq_some_iff, packetOptions_take hlen, if_pos h0]
      exact ⟨o, firstQualifying_encode rfl hos ho, rfl⟩
    · rw [if_neg h0] at hdata
      rw [parseRaPacket_packetOptions, parseRaPacket_packetOptions, packetOptions_take hlen, if_neg h0, hdata]

/-! ## Lifetimes -/

/-- The preferred lifetime of a Prefix Information Option. -/
def RaOption.preferredLifetime (o : RaOption) : Nat := beNat ((o.encode.drop 8).take 4)

/-- A qualifying option whose prefix is preferred still. -/
structure RaOption.Live (o : RaOption) : Prop extends o.Qualifies where
  preferred : o.preferredLifetime ≠ 0

/-- The parser does not return a prefix that is withdrawn while one is live: what it returns, if there is a live prefix,
is the /64 of a live one. -/
def PrefersLive (data : List UInt8) : Prop :=
  (∃ o ∈ packetOptions data, o.Live) →
    ∃ o ∈ packetOptions data, o.Live ∧ parseRaPacket data = .returned (some (maskTo64 o.prefixField))

/-- **The first qualifying option decides**, whatever the lifetimes are: the prefix returned is that of a live option
just if the first qualifying option is live or has its /64 in common with one that is. -/
theorem parseRaPacket_live_iff (data : List UInt8) :
    (∀ o, FirstQualifying (packetOptions data) o → parseRaPacket data = .returned (some (maskTo64 o.prefixField))) ∧
    ((∃ o ∈ packetOptions data, o.Live ∧ parseRaPacket data = .returned (some (maskTo64 o.prefixField))) ↔
      ∃ o, FirstQualifying (packetOptions data) o ∧
        (o.Live ∨ ∃ o' ∈ packetOptions data, o'.Live ∧ o'.prefixField.upper64 = o.prefixField.upper64)) := by
  refine ⟨fun o ho => parseRaPacket_eq_some_iff.2 ⟨o, ho, rfl⟩, ?_⟩
  constructor
  · rintro ⟨o', hmem, hlive, hparse⟩
    obtain ⟨o, ho, hmask⟩ := parseRaPacket_eq_some_iff.1 hparse
    exact ⟨o, ho, Or.inr ⟨o', hmem, hlive, maskTo64_eq_iff.1 hmask⟩⟩
  · rintro ⟨o, ho, hlive | ⟨o', hmem, hlive, hupper⟩⟩
    · exact ⟨o, ho.mem, hlive, parseRaPacket_eq_some_iff.2 ⟨o, ho, rfl⟩⟩
    · exact ⟨o', hmem, hlive, parseRaPacket_eq_some_iff.2 ⟨o, ho, maskTo64_eq_iff.2 hupper⟩⟩

/-- A Prefix Information Option as the tests of the source build it, with a preferred lifetime of `preferred` seconds
and the prefix `2001:db8:0:subnet::`. -/
def samplePio (preferred subnet : UInt8) : RaOption where
  type := 3
  len := 4
  body := [64, 0xC0, 0, 1, 0x51, 0x80, 0, 0, 0, preferred, 0, 0, 0, 0,
    0x20, 0x01, 0x0d, 0xb8, 0, 0, 0, subnet, 0, 0, 0, 0, 0, 0, 0, 0]
  length_body := rfl

def sampleHeader : RaHeader := ⟨List.replicate 15 0, rfl⟩

/-- During a rotation the withdrawn prefix may come first. -/
def sampleRotation : List UInt8 := sampleHeader.encode ++ [samplePio 0 1, samplePio 60 2].flatMap RaOption.encode

theorem not_prefersLive : ¬∀ data, PrefersLive data := by
  intro h
  have hoptions : packetOptions sampleRotation = [samplePio 0 1, samplePio 60 2] := by
    rw [sampleRotation, packetOptions_encode, raOptions_flatMap]
  have hlive : (samplePio 60 2).Live := ⟨⟨⟨rfl, by decide, 0xC0, rfl, by decide⟩, by decide⟩, by decide⟩
  have hreturned : parseRaPacket sampleRotation = .returned (some (maskTo64 (samplePio 0 1).prefixField)) := by decide
  obtain ⟨o, hmem, ho, hparse⟩ := h sampleRotation ⟨samplePio 60 2, by simp [hoptions], hlive⟩
  rw [hoptions, List.mem_cons, List.mem_singleton] at hmem
  rcases hmem with rfl | rfl
  · exact ho.preferred (by decide)
  · exact absurd (hreturned.symm.trans hparse) (by decide)

end DdnsIpv6.Prefix.Ra

import DdnsIpv6.Lib.StableSort
import DdnsIpv6.Prefix.Netlink
import Mathlib.Data.Prod.Lex

/-!
# Which address `detect_prefix` takes

An eligible message is an IPv6 address in `2000::/3` that is not temporary. `detect_prefix` takes the first of those
with the greatest pair of a valid and a preferred lifetime (`Chosen`, `detectPrefix_spec`). The valid lifetime comes
first, so a deprecated address is taken unless one that is not deprecated lasts as long (`detectPrefix_live_iff`).
-/

namespace DdnsIpv6.Prefix.Netlink

open Lib

/-! ## Eligible addresses -/

/-- The message is the address `a`, which can be taken. -/
structure AddressMessage.Eligible (msg : AddressMessage) (a : Ipv6Addr) : Prop where
  ipv6 : msg.isIpv6 = true
  address : msg.address = some (.v6 a)
  global : a.GlobalUnicast
  /-- It is not secondary and non-permanent at once. -/
  lasting : ¬(msg.isSecondary = true ∧ msg.isPermanent = false)

/-- The valid and the preferred lifetime, in the order of pairs; without cache info both are `u32::MAX`. -/
def AddressMessage.lifetimes (msg : AddressMessage) : ℕ ×ₗ ℕ :=
  match msg.cacheInfo with
  | some info => toLex (info.valid.toNat, info.preferred.toNat)
  | none => toLex (2 ^ 32 - 1, 2 ^ 32 - 1)

/-- The address is preferred for some time yet. -/
def AddressMessage.Live (msg : AddressMessage) : Prop := 0 < (ofLex msg.lifetimes).2

instance (msg : AddressMessage) : Decidable msg.Live := inferInstanceAs (Decidable (_ < _))

/-- The message is the address `a`, eligible, and the first of the eligible ones with the greatest lifetimes. -/
structure Chosen (msgs : List AddressMessage) (msg : AddressMessage) (a : Ipv6Addr) : Prop where
  eligible : msg.Eligible a
  first : ∃ before after, msgs = before ++ msg :: after ∧
    (∀ m ∈ before, ∀ b, m.Eligible b → m.lifetimes < msg.lifetimes) ∧
    ∀ m ∈ after, ∀ b, m.Eligible b → m.lifetimes ≤ msg.lifetimes

variable {msgs : List AddressMessage} {msg m : AddressMessage} {a b : Ipv6Addr} {c d : Candidate} {interface : String}

/-! ## The sort -/

/-- The lifetimes of a candidate, as a pair. -/
def Candidate.lifetimes (c : Candidate) : ℕ ×ₗ ℕ := toLex (c.validLft.toNat, c.preferredLft.toNat)

/-- The comparator puts greater lifetimes first. -/
theorem cmp_isLE : (cmp c d).isLE = true ↔ d.lifetimes ≤ c.lifetimes := by
  rw [cmp, Ordering.isLE_then_iff_or, Candidate.lifetimes, Candidate.lifetimes, Prod.Lex.toLex_le_toLex,
    Std.compare_eq_lt, Std.compare_eq_iff_eq, Std.isLE_compare, UInt32.lt_iff_toNat_lt, UInt32.le_iff_toNat_le,
    ← UInt32.toNat_inj]

instance : Std.Total fun c d : Candidate => (cmp c d).isLE = true :=
  ⟨fun c d => by simpa only [cmp_isLE] using le_total d.lifetimes c.lifetimes⟩

instance : IsTrans Candidate fun c d => (cmp c d).isLE = true :=
  ⟨fun c d e => by simpa only [cmp_isLE] using fun h h' => le_trans h' h⟩

/-- The lifetimes of a message are those that the filter reads. -/
theorem AddressMessage.lifetimes_eq (msg : AddressMessage) : msg.lifetimes =
    toLex (((msg.cacheInfo.map CacheInfo.valid).getD maxLft).toNat,
      ((msg.cacheInfo.map CacheInfo.preferred).getD maxLft).toNat) := by
  unfold lifetimes
  cases msg.cacheInfo <;> rfl

/-- A message passes the filter as its candidate. -/
theorem candidate_iff : candidate msg = some c ↔ msg.Eligible c.addr ∧ c.lifetimes = msg.lifetimes := by
  rw [candidate_eq_some, isGlobalUnicast_iff, Candidate.lifetimes, msg.lifetimes_eq, toLex_inj, Prod.mk.injEq,
    UInt32.toNat_inj, UInt32.toNat_inj]
  constructor
  · rintro ⟨hv6, ha, hg, hl, hlft⟩
    exact ⟨⟨hv6, ha, hg, hl⟩, hlft⟩
  · rintro ⟨⟨hv6, ha, hg, hl⟩, hlft⟩
    exact ⟨hv6, ha, hg, hl, hlft⟩

/-- An eligible message has a candidate. -/
theorem AddressMessage.Eligible.candidate (h : msg.Eligible a) :
    ∃ c, candidate msg = some c ∧ c.addr = a ∧ c.lifetimes = msg.lifetimes :=
  ⟨⟨a, _, _⟩, candidate_iff.2 ⟨h, msg.lifetimes_eq.symm⟩, rfl, msg.lifetimes_eq.symm⟩

theorem candidate_isSome : (Netlink.candidate msg).isSome = true ↔ ∃ a, msg.Eligible a := by
  rw [Option.isSome_iff_exists]
  constructor
  · rintro ⟨c, hc⟩
    exact ⟨c.addr, (candidate_iff.1 hc).1⟩
  · rintro ⟨a, ha⟩
    obtain ⟨c, hc, -⟩ := ha.candidate
    exact ⟨c, hc⟩

instance (msg : AddressMessage) : Decidable (∃ a, msg.Eligible a) := decidable_of_iff _ candidate_isSome

/-- A message is one address. -/
theorem AddressMessage.Eligible.inj (h : msg.Eligible a) (h' : msg.Eligible b) : a = b := by
  have := h.address.symm.trans h'.address
  simpa using this

/-- The head of the sorted candidates is the chosen message. -/
theorem chosen_of_firstLeast
    (h : FirstLeast (fun c d => (cmp c d).isLE = true) (msgs.filterMap candidate) c) :
    ∃ msg, Chosen msgs msg c.addr := by
  obtain ⟨before, after, hsplit, hbefore, hafter⟩ := h
  obtain ⟨xs, ys, rfl, rfl, hys⟩ := List.filterMap_eq_append_iff.1 hsplit
  obtain ⟨us, msg, vs, rfl, hus, hmsg, rfl⟩ := List.filterMap_eq_cons_iff.1 hys
  obtain ⟨heligible, hlft⟩ := candidate_iff.1 hmsg
  refine ⟨msg, heligible, xs ++ us, vs, by rw [List.append_assoc], fun m hm b hb => ?_, fun m hm b hb => ?_⟩
  · obtain ⟨d, hd, -, hdl⟩ := hb.candidate
    rcases List.mem_append.1 hm with hm | hm
    · have hnot : ¬(cmp d c).isLE = true := hbefore d (List.mem_filterMap.2 ⟨m, hm, hd⟩)
      rw [cmp_isLE, not_le, hdl, hlft] at hnot
      exact hnot
    · rw [hus m hm] at hd
      cases hd
  · obtain ⟨d, hd, -, hdl⟩ := hb.candidate
    have hle : (cmp c d).isLE = true := hafter d (List.mem_filterMap.2 ⟨m, hm, hd⟩)
    rw [cmp_isLE, hdl, hlft] at hle
    exact hle

/-! ## The result -/

/-- What `detect_prefix` returns when the listing succeeds. -/
theorem detectPrefix_cases (msgs : List AddressMessage) (interface : String) :
    ((∀ m ∈ msgs, ∀ a, ¬m.Eligible a) ∧ detectPrefix (.ok (.ok msgs)) interface =
      .error (.prefixDetection ("no global unicast IPv6 address found on interface '" ++ interface ++ "'"))) ∨
    ∃ msg a, Chosen msgs msg a ∧ detectPrefix (.ok (.ok msgs)) interface = .ok (maskTo64 a) := by
  cases hs : sortCandidates (msgs.filterMap candidate) with
  | nil =>
    have hnil : msgs.filterMap candidate = [] := by
      have hlen := List.length_insertionSort (fun c d => (cmp c d).isLE = true) (msgs.filterMap candidate)
      rw [← sortCandidates, hs] at hlen
      exact List.length_eq_zero_iff.1 hlen.symm
    rw [List.filterMap_eq_nil_iff] at hnil
    refine Or.inl ⟨fun m hm a ha => ?_, by simp only [detectPrefix, hs]⟩
    have hsome := candidate_isSome.2 ⟨a, ha⟩
    rw [hnil m hm] at hsome
    cases hsome
  | cons best cs =>
    obtain ⟨msg, hmsg⟩ := chosen_of_firstLeast (firstLeast_head hs)
    exact Or.inr ⟨msg, best.addr, hmsg, by simp only [detectPrefix, hs]⟩

/-- Only eligible messages have candidates. -/
theorem filterMap_candidate_filter (msgs : List AddressMessage) :
    (msgs.filter fun m => ∃ a, m.Eligible a).filterMap candidate = msgs.filterMap candidate := by
  induction msgs with
  | nil => rfl
  | cons m msgs ih =>
    by_cases hm : ∃ a, m.Eligible a
    · rw [List.filter_cons_of_pos (by simpa using hm), List.filterMap_cons, List.filterMap_cons, ih]
    · have hnone : candidate m = none := Option.not_isSome_iff_eq_none.1 (mt candidate_isSome.1 hm)
      rw [List.filter_cons_of_neg (by simpa using hm), List.filterMap_cons_none hnone, ih]

/-- **`detect_prefix` meets its specification**: it fails exactly when no message is eligible, it returns the /64 of the
chosen address otherwise, and the other messages never matter. -/
theorem detectPrefix_spec (msgs : List AddressMessage) (interface : String) :
    ((∃ e, detectPrefix (.ok (.ok msgs)) interface = .error e) ↔ ∀ m ∈ msgs, ∀ a, ¬m.Eligible a) ∧
    ((∃ m ∈ msgs, ∃ a, m.Eligible a) → ∃ msg a p, Chosen msgs msg a ∧
      detectPrefix (.ok (.ok msgs)) interface = .ok p ∧ p.upper64 = a.upper64 ∧ p.lower64 = 0) ∧
    ∀ msgs', (msgs'.filter fun m => ∃ a, m.Eligible a) = (msgs.filter fun m => ∃ a, m.Eligible a) →
      detectPrefix (.ok (.ok msgs')) interface = detectPrefix (.ok (.ok msgs)) interface := by
  refine ⟨?_, ?_, fun msgs' h => ?_⟩
  · rcases detectPrefix_cases msgs interface with ⟨hnone, hdetect⟩ | ⟨msg, a, hchosen, hdetect⟩
    · exact iff_of_true ⟨_, hdetect⟩ hnone
    · obtain ⟨before, after, rfl, -⟩ := hchosen.first
      refine iff_of_false ?_ fun hnone => hnone msg (by simp) a hchosen.eligible
      rintro ⟨e, he⟩
      rw [hdetect] at he
      cases he
  · rintro ⟨m, hm, a, ha⟩
    rcases detectPrefix_cases msgs interface with ⟨hnone, -⟩ | ⟨msg, b, hchosen, hdetect⟩
    · exact absurd ha (hnone m hm a)
    · exact ⟨msg, b, _, hchosen, hdetect, maskTo64_upper64 b, maskTo64_lower64 b⟩
  · simp only [detectPrefix]
    rw [← filterMap_candidate_filter msgs', h, filterMap_candidate_filter]

/-! ## Deprecated addresses -/

/-- The valid lifetime. -/
def AddressMessage.validLft (msg : AddressMessage) : ℕ := (ofLex msg.lifetimes).1

/-- The eligible message `msg` is valid as long as all others. -/
def Lasts (msgs : List AddressMessage) (msg : AddressMessage) : Prop :=
  msg ∈ msgs ∧ (∃ a, msg.Eligible a) ∧ ∀ m ∈ msgs, ∀ b, m.Eligible b → m.validLft ≤ msg.validLft

theorem Chosen.mem (h : Chosen msgs msg a) : msg ∈ msgs := by
  obtain ⟨before, after, rfl, -⟩ := h.first
  exact List.mem_append_right _ List.mem_cons_self

/-- The chosen message has the greatest lifetimes. -/
theorem Chosen.greatest (h : Chosen msgs msg a) (hm : m ∈ msgs) (hb : m.Eligible b) : m.lifetimes ≤ msg.lifetimes := by
  obtain ⟨before, after, rfl, hbefore, hafter⟩ := h.first
  rcases List.mem_append.1 hm with hm | hm
  · exact le_of_lt (hbefore m hm b hb)
  · rcases List.mem_cons.1 hm with rfl | hm
    · exact le_refl _
    · exact hafter m hm b hb

/-- The chosen message is live exactly when one of those that are valid longest is. -/
theorem Chosen.live_iff (h : Chosen msgs msg a) : msg.Live ↔ ∃ m, Lasts msgs m ∧ m.Live := by
  have hle : ∀ m ∈ msgs, ∀ b, m.Eligible b → m.validLft < msg.validLft ∨
      m.validLft = msg.validLft ∧ (ofLex m.lifetimes).2 ≤ (ofLex msg.lifetimes).2 := fun m hm b hb =>
    Prod.Lex.le_iff.1 (h.greatest hm hb)
  constructor
  · intro hlive
    refine ⟨msg, ⟨h.mem, ⟨a, h.eligible⟩, fun m hm b hb => ?_⟩, hlive⟩
    rcases hle m hm b hb with hlt | ⟨heq, -⟩
    · exact hlt.le
    · exact heq.le
  · rintro ⟨m, ⟨hm, ⟨b, hb⟩, hlasts⟩, hlive⟩
    rcases hle m hm b hb with hlt | ⟨-, hpref⟩
    · exact absurd (hlasts msg h.mem a h.eligible) (not_le_of_gt hlt)
    · exact lt_of_lt_of_le hlive hpref

/-- One message is chosen. -/
theorem Chosen.unique {msg' : AddressMessage} (h : Chosen msgs msg a) (h' : Chosen msgs msg' b) : msg = msg' := by
  obtain ⟨before, after, hmsgs, hbefore, hafter⟩ := h.first
  obtain ⟨before', after', hmsgs', hbefore', hafter'⟩ := h'.first
  rcases List.append_eq_append_iff.1 (hmsgs.symm.trans hmsgs') with ⟨ms, hms, hrest⟩ | ⟨ms, hms, hrest⟩
  · cases ms with
    | nil => exact (List.cons.inj hrest).1
    | cons m ms =>
      -- `msg` comes before `msg'`
      obtain ⟨rfl, rfl⟩ := List.cons.inj hrest
      have hlt := hbefore' msg (hms ▸ List.mem_append_right _ List.mem_cons_self) a h.eligible
      have hle := hafter msg' (List.mem_append_right _ List.mem_cons_self) b h'.eligible
      exact absurd hlt (not_lt_of_ge hle)
  · cases ms with
    | nil => exact (List.cons.inj hrest).1.symm
    | cons m ms =>
      obtain ⟨rfl, rfl⟩ := List.cons.inj hrest
      have hlt := hbefore msg' (hms ▸ List.mem_append_right _ List.mem_cons_self) b h'.eligible
      have hle := hafter' msg (List.mem_append_right _ List.mem_cons_self) a h.eligible
      exact absurd hlt (not_lt_of_ge hle)

/-- The /64 of the chosen address is returned. -/
theorem Chosen.detectPrefix_eq (h : Chosen msgs msg a) (interface : String) :
    detectPrefix (.ok (.ok msgs)) interface = .ok (maskTo64 a) := by
  rcases detectPrefix_cases msgs interface with ⟨hnone, -⟩ | ⟨msg', b, hchosen, hdetect⟩
  · exact absurd h.eligible (hnone msg h.mem a)
  · obtain rfl := h.unique hchosen
    rw [hdetect, h.eligible.inj hchosen.eligible]

/-- An eligible message, so one is chosen. -/
theorem exists_chosen (hm : m ∈ msgs) (hb : m.Eligible b) : ∃ msg a, Chosen msgs msg a := by
  rcases detectPrefix_cases msgs "" with ⟨hnone, -⟩ | ⟨msg, a, hchosen, -⟩
  · exact absurd hb (hnone m hm b)
  · exact ⟨msg, a, hchosen⟩

/-- **The lifetimes of what is reported**: the chosen address, whose /64 is returned, is live exactly when one of the
eligible addresses that are valid longest is. So the /64 is that of a live address just if this holds or the chosen
address has its /64 in common with one. -/
theorem detectPrefix_live_iff (msgs : List AddressMessage) (interface : String) :
    (∀ msg a, Chosen msgs msg a → detectPrefix (.ok (.ok msgs)) interface = .ok (maskTo64 a) ∧
      (msg.Live ↔ ∃ m, Lasts msgs m ∧ m.Live)) ∧
    ((∃ m ∈ msgs, ∃ b, m.Eligible b ∧ m.Live ∧ detectPrefix (.ok (.ok msgs)) interface = .ok (maskTo64 b)) ↔
      (∃ m, Lasts msgs m ∧ m.Live) ∨
      ∃ msg a, Chosen msgs msg a ∧ ∃ m ∈ msgs, ∃ b, m.Eligible b ∧ m.Live ∧ b.upper64 = a.upper64) := by
  refine ⟨fun msg a h => ⟨h.detectPrefix_eq interface, h.live_iff⟩, ?_⟩
  constructor
  · rintro ⟨m, hm, b, hb, hlive, hdetect⟩
    obtain ⟨msg, a, hchosen⟩ := exists_chosen hm hb
    rw [hchosen.detectPrefix_eq, Except.ok.injEq, maskTo64_eq_iff] at hdetect
    exact Or.inr ⟨msg, a, hchosen, m, hm, b, hb, hlive, hdetect.symm⟩
  · rintro (⟨m, hlasts, hlive⟩ | ⟨msg, a, hchosen, m, hm, b, hb, hlive, hupper⟩)
    · obtain ⟨b, hb⟩ := hlasts.2.1
      obtain ⟨msg, a, hchosen⟩ := exists_chosen hlasts.1 hb
      exact ⟨msg, hchosen.mem, a, hchosen.eligible, hchosen.live_iff.2 ⟨m, hlasts, hlive⟩,
        hchosen.detectPrefix_eq interface⟩
    · refine ⟨m, hm, b, hb, hlive, ?_⟩
      rw [hchosen.detectPrefix_eq]
      exact congrArg Except.ok (maskTo64_eq_iff.2 hupper.symm)

/-- An interface during a rotation: the address of the old prefix is deprecated and valid for a day, that of the new
prefix is valid for an hour. -/
def rotation : List AddressMessage :=
  [⟨true, some (.v6 ⟨0x2001, 0xdb8, 0, 1, 0, 0, 0, 7⟩), false, true, some ⟨86400, 0⟩⟩,
    ⟨true, some (.v6 ⟨0x2001, 0xdb8, 0, 2, 0, 0, 0, 7⟩), false, true, some ⟨3600, 1800⟩⟩]

/-- The deprecated prefix is reported, which is not that of the live address. -/
theorem detectPrefix_rotation : (∃ m ∈ rotation, (∃ a, m.Eligible a) ∧ m.Live) ∧
    detectPrefix (.ok (.ok rotation)) "eth0" = .ok ⟨0x2001, 0xdb8, 0, 1, 0, 0, 0, 0⟩ ∧
    ∀ m ∈ rotation, ∀ a, m.Eligible a → m.Live → maskTo64 a ≠ ⟨0x2001, 0xdb8, 0, 1, 0, 0, 0, 0⟩ := by
  refine ⟨by decide, by decide, fun m hm a ha hlive => ?_⟩
  simp only [rotation, List.mem_cons, List.not_mem_nil, or_false] at hm
  rcases hm with rfl | rfl
  · exact absurd hlive (by decide)
  · cases ha.address
    decide

end DdnsIpv6.Prefix.Netlink

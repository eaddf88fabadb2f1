import DdnsIpv6.Lib.Ipv6.Text
import Mathlib.Tactic.IntervalCases

/-!
# Reading back a written address

`fromStr_toString`: every address is read back from its text. A number is read back from its digits in front of
anything that is no digit (`readNumber_toDigits`), a list of groups in front of the end or of `::` (`readGroups_head`,
`readGroups_tail`), and the run of zeros that the writer leaves out is a run of zeros (`zeroes_spec`), so the reader
fills in what was left out.
-/

namespace Lib

/-! ## Digits -/

theorem toDigit_digitChar {radix d : Nat} (hr : radix ≤ 16) (hd : d < radix) :
    toDigit radix (Nat.digitChar d) = some d := by
  have hv : ∀ d < 16, digitValue (Nat.digitChar d) = some d := by decide
  rw [toDigit, hv d (by omega), Option.filter_some_pos (by simpa using hd)]

/-- The digits of a number are digits. -/
theorem toDigit_of_mem {radix n : Nat} (h1 : 1 < radix) (hr : radix ≤ 16) {c : Char} (hc : c ∈ Nat.toDigits radix n) :
    (toDigit radix c).isSome := by
  induction n using Nat.strongRecOn with
  | _ n ih =>
    by_cases hn : n < radix
    · rw [Nat.toDigits_of_lt_base hn, List.mem_singleton] at hc
      rw [hc, toDigit_digitChar hr hn]
      rfl
    · rw [Nat.toDigits_of_base_le h1 (by omega), List.mem_append] at hc
      rcases hc with hc | hc
      · exact ih (n / radix) (Nat.div_lt_self (by omega) h1) hc
      · rw [List.mem_singleton] at hc
        rw [hc, toDigit_digitChar hr (Nat.mod_lt n (by omega))]
        rfl

/-- The digits of a number spell it. -/
theorem digitsValue_toDigits {radix : Nat} (h1 : 1 < radix) (hr : radix ≤ 16) (n : Nat) :
    digitsValue radix (Nat.toDigits radix n) = n := by
  induction n using Nat.strongRecOn with
  | _ n ih =>
    by_cases hn : n < radix
    · rw [Nat.toDigits_of_lt_base hn]
      simp [digitsValue, toDigit_digitChar hr hn]
    · have hlast := toDigit_digitChar hr (Nat.mod_lt n (show 0 < radix by omega))
      have hih := ih (n / radix) (Nat.div_lt_self (by omega) h1)
      rw [Nat.toDigits_of_base_le h1 (by omega), digitsValue, List.foldl_append]
      simp only [digitsValue] at hih
      rw [hih]
      simp only [List.foldl_cons, List.foldl_nil, hlast, Option.getD_some]
      exact Nat.div_add_mod' n radix

/-- Only zero has a leading zero. -/
theorem head_toDigits {radix n : Nat} (h1 : 1 < radix) (hr : radix ≤ 16)
    (h : (Nat.toDigits radix n).head? = some '0') : (Nat.toDigits radix n).length = 1 := by
  induction n using Nat.strongRecOn with
  | _ n ih =>
    by_cases hn : n < radix
    · rw [Nat.toDigits_of_lt_base hn]
      rfl
    · exfalso
      have hq : 0 < n / radix := Nat.div_pos (by omega) (by omega)
      rw [Nat.toDigits_of_base_le h1 (by omega), List.head?_append_of_ne_nil _ Nat.toDigits_ne_nil] at h
      have hlen := ih (n / radix) (Nat.div_lt_self (by omega) h1) h
      have hone : n / radix < radix := by
        have := (Nat.length_toDigits_le_iff (n := n / radix) h1 Nat.one_pos).1 hlen.le
        simpa using this
      rw [Nat.toDigits_of_lt_base hone, List.head?_cons, Option.some.injEq] at h
      have hz := toDigit_digitChar hr hone
      rw [h] at hz
      have h0 : digitValue '0' = some 0 := by decide
      rw [toDigit, h0, Option.filter_some_pos (by simp; omega), Option.some.injEq] at hz
      omega

/-- The text does not go on with a digit. -/
def NoDigit (radix : Nat) (rest : List Char) : Prop := ∀ c ∈ rest.head?, (toDigit radix c).isSome = false

theorem takeWhile_digits {radix : Nat} {ds rest : List Char} (hds : ∀ c ∈ ds, (toDigit radix c).isSome)
    (hrest : NoDigit radix rest) : (ds ++ rest).takeWhile (fun c => (toDigit radix c).isSome) = ds := by
  rw [List.takeWhile_append_of_pos hds]
  cases rest with
  | nil => simp
  | cons c rest => simp [hrest c rfl]

/-- **A number is read back** from its digits. -/
theorem readNumber_toDigits {radix maxDigits bound n : Nat} {zero : Bool} {rest : List Char} (h1 : 1 < radix)
    (hr : radix ≤ 16) (hm : 0 < maxDigits) (hn : n < radix ^ maxDigits) (hb : n < bound)
    (hrest : NoDigit radix rest) :
    readNumber radix maxDigits zero bound (Nat.toDigits radix n ++ rest) = some (n, rest) := by
  have hlen := (Nat.length_toDigits_le_iff (n := n) h1 hm).2 hn
  have hzero : ¬((!zero && (Nat.toDigits radix n).head? == some '0' &&
      decide (1 < (Nat.toDigits radix n).length)) = true) := by
    simp only [Bool.and_eq_true, beq_iff_eq, decide_eq_true_eq, not_and, Nat.not_lt]
    exact fun h => (head_toDigits h1 hr h.2).le
  unfold readNumber
  simp only [takeWhile_digits (fun c => toDigit_of_mem h1 hr) hrest, digitsValue_toDigits h1 hr]
  rw [if_neg (by omega), if_neg (by simp [Nat.toDigits_ne_nil]), if_neg hzero, if_pos hb, List.drop_left]

/-- Nothing is read where no digit stands. -/
theorem readNumber_none {radix maxDigits bound : Nat} {zero : Bool} {cs : List Char} (h : NoDigit radix cs) :
    readNumber radix maxDigits zero bound cs = none := by
  have : cs.takeWhile (fun c => (toDigit radix c).isSome) = [] := by
    simpa using takeWhile_digits (List.forall_mem_nil _) h
  simp [readNumber, this]

/-- What is left after a number is a part of the text. -/
theorem readNumber_sub {radix maxDigits bound n : Nat} {zero : Bool} {cs rest : List Char}
    (h : readNumber radix maxDigits zero bound cs = some (n, rest)) : ∀ c ∈ rest, c ∈ cs := by
  unfold readNumber at h
  simp only at h
  split at h
  · cases h
  · split at h
    · cases h
    · split at h
      · cases h
      · split at h
        · cases h
          exact fun c hc => List.mem_of_mem_drop hc
        · cases h

/-! ## Groups without a dot -/

/-- A dotted quad has a dot. -/
theorem readIpv4Addr_none {cs : List Char} (h : '.' ∉ cs) : readIpv4Addr cs = none := by
  unfold readIpv4Addr
  cases ha : readOctet true cs with
  | none => rfl
  | some p =>
    obtain ⟨a, rest⟩ := p
    have hdot : readGivenChar '.' rest = none := by
      have hsub : '.' ∉ rest := fun hm => h (readNumber_sub ha _ hm)
      cases rest with
      | nil => rfl
      | cons c rest =>
        have hc : c ≠ '.' := by
          rintro rfl
          exact hsub List.mem_cons_self
        simp [readGivenChar, hc]
    have hb : readOctet false rest = none := by simp [readOctet, readSeparator, hdot]
    simp [hb]

theorem readSeparator_ipv4_none {first : Bool} {cs : List Char} (h : '.' ∉ cs) :
    readSeparator ':' first readIpv4Addr cs = none := by
  cases first with
  | true => exact readIpv4Addr_none h
  | false =>
    cases cs with
    | nil => rfl
    | cons c cs =>
      simp only [readSeparator, readGivenChar, Bool.false_eq_true, if_false]
      split
      · exact readIpv4Addr_none fun hm => h (List.mem_cons_of_mem _ hm)
      · rfl

/-- Groups, each behind a colon. -/
def colonGroups (xs : List UInt16) : List Char := xs.flatMap fun x => ':' :: lowerHex x

/-- The text ends here, or goes on with `::`. -/
def Stops (rest : List Char) : Prop := rest = [] ∨ ∃ r, rest = ':' :: ':' :: r

theorem noDigit_colon (r : List Char) : NoDigit 16 (':' :: r) := by
  intro c hc
  cases hc
  decide

theorem noDigit_stops {rest : List Char} (h : Stops rest) : NoDigit 16 rest := by
  rcases h with rfl | ⟨r, rfl⟩
  · intro c hc
    cases hc
  · exact noDigit_colon _

theorem noDigit_colonGroups (xs : List UInt16) {rest : List Char} (h : Stops rest) :
    NoDigit 16 (colonGroups xs ++ rest) := by
  cases xs with
  | nil => exact noDigit_stops h
  | cons x xs => exact noDigit_colon _

theorem dot_notMem_lowerHex (x : UInt16) : '.' ∉ lowerHex x := fun h => by
  have := toDigit_of_mem (by decide) (by decide) h
  revert this
  decide

theorem dot_notMem_colonGroups (xs : List UInt16) : '.' ∉ colonGroups xs := by
  intro h
  obtain ⟨x, _, hx⟩ := List.mem_flatMap.1 h
  rcases List.mem_cons.1 hx with h | h
  · revert h
    decide
  · exact dot_notMem_lowerHex x h

theorem readNumber_lowerHex (x : UInt16) {rest : List Char} (h : NoDigit 16 rest) :
    readNumber 16 4 true 65536 (lowerHex x ++ rest) = some (x.toNat, rest) :=
  readNumber_toDigits (by decide) (by decide) (by decide) x.toNat_lt x.toNat_lt h

/-- No group starts at a stop. -/
theorem readGroup_stops {rest : List Char} (h : Stops rest) (first : Bool) : readGroup first rest = none := by
  rcases h with rfl | ⟨r, rfl⟩ <;> cases first
  · rfl
  · rfl
  · simp [readGroup, readSeparator, readGivenChar, readNumber_none (noDigit_colon r)]
  · simp [readGroup, readSeparator, readNumber_none (noDigit_colon (':' :: r))]

/-- One step of the group reader where no dotted quad stands. -/
theorem readGroups_succ {n : Nat} {first : Bool} {cs : List Char}
    (h : readSeparator ':' first readIpv4Addr cs = none) :
    readGroups (n + 1) first cs = match readGroup first cs with
      | some (g, rest) => (UInt16.ofNat g :: (readGroups n false rest).1, (readGroups n false rest).2)
      | none => ([], false, cs) := by
  have hnone : (if 1 ≤ n then readSeparator ':' first readIpv4Addr cs else none) = none := by
    split
    · exact h
    · rfl
  cases hg : readGroup first cs with
  | none => simp only [readGroups, hnone, hg]
  | some g => simp only [readGroups, hnone, hg]

/-- One step of the group reader at a dotted quad. -/
theorem readGroups_ipv4 {n : Nat} {first : Bool} {cs rest : List Char} {a b : UInt16}
    (h : readSeparator ':' first readIpv4Addr cs = some ((a, b), rest)) :
    readGroups (n + 2) first cs = ([a, b], true, rest) := by
  rw [readGroups, if_pos (by omega), h]

/-- Groups behind colons are read up to a stop. -/
theorem readGroups_tail : ∀ {xs : List UInt16} {n : Nat} {rest : List Char}, xs.length ≤ n → '.' ∉ rest → Stops rest →
    readGroups n false (colonGroups xs ++ rest) = (xs, false, rest)
  | [], 0, _, _, _, _ => rfl
  | [], n + 1, rest, _, hd, hs => by
    rw [show colonGroups [] ++ rest = rest from rfl, readGroups_succ (readSeparator_ipv4_none hd), readGroup_stops hs]
  | x :: xs, 0, _, hl, _, _ => by simp at hl
  | x :: xs, n + 1, rest, hl, hd, hs => by
    have hdot : '.' ∉ colonGroups (x :: xs) ++ rest := by
      rw [List.mem_append, not_or]
      exact ⟨dot_notMem_colonGroups _, hd⟩
    have hg : readGroup false (colonGroups (x :: xs) ++ rest) = some (x.toNat, colonGroups xs ++ rest) := by
      show readGroup false (':' :: (lowerHex x ++ colonGroups xs) ++ rest) = _
      simp only [readGroup, readSeparator, Bool.false_eq_true, if_false, List.cons_append, readGivenChar, if_pos,
        Option.bind_some, List.append_assoc]
      exact readNumber_lowerHex x (noDigit_colonGroups xs hs)
    rw [readGroups_succ (readSeparator_ipv4_none hdot), hg]
    simp only [UInt16.ofNat_toNat, readGroups_tail (Nat.le_of_succ_le_succ hl) hd hs]

/-- Joined groups are read up to a stop. -/
theorem readGroups_head (xs : List UInt16) (n : Nat) (rest : List Char) (hl : xs.length ≤ n) (hd : '.' ∉ rest)
    (hs : Stops rest) : readGroups n true (fmtSubslice xs ++ rest) = (xs, false, rest) := by
  cases n with
  | zero =>
    obtain rfl := List.length_eq_zero_iff.1 (Nat.le_zero.1 hl)
    rfl
  | succ n =>
    cases xs with
    | nil =>
      rw [show fmtSubslice [] ++ rest = rest from rfl, readGroups_succ (readSeparator_ipv4_none hd), readGroup_stops hs]
    | cons x xs =>
      have hdot : '.' ∉ fmtSubslice (x :: xs) ++ rest := by
        simp only [fmtSubslice, List.mem_append, not_or]
        exact ⟨⟨dot_notMem_lowerHex x, dot_notMem_colonGroups xs⟩, hd⟩
      have hg : readGroup true (fmtSubslice (x :: xs) ++ rest) = some (x.toNat, colonGroups xs ++ rest) := by
        simp only [readGroup, readSeparator, if_true, fmtSubslice, List.append_assoc]
        exact readNumber_lowerHex x (noDigit_colonGroups xs hs)
      rw [readGroups_succ (readSeparator_ipv4_none hdot), hg]
      simp only [UInt16.ofNat_toNat, readGroups_tail (Nat.le_of_succ_le_succ hl) hd hs]

/-! ## The run of zeros -/

/-- A span inside the list that holds zeros only. -/
def ZeroSpan (l : List UInt16) (z : Span) : Prop := ∀ j, z.start ≤ j → j < z.start + z.len → l[j]? = some 0

/-- Whatever span `zeroes` returns holds zeros only. -/
theorem zeroes_spec {l : List UInt16} : ∀ {xs : List UInt16} {i : Nat} {longest current : Span}, xs = l.drop i →
    ZeroSpan l longest → ZeroSpan l current → (current.len = 0 ∨ current.start + current.len = i) →
    ZeroSpan l (zeroes xs i longest current)
  | [], _, _, _, _, hl, _, _ => hl
  | x :: xs, i, longest, current, hx, hl, hc, hi => by
    have hxi : l[i]? = some x := by rw [← List.head?_drop, ← hx]; rfl
    have hxs : xs = l.drop (i + 1) := by rw [← List.tail_drop, ← hx]; rfl
    rw [zeroes]
    split
    · rename_i h0
      subst h0
      have hc' : ZeroSpan l ⟨if current.len = 0 then i else current.start, current.len + 1⟩ := by
        intro j h1 h2
        simp only at h1 h2
        split at h1 <;> rename_i hlen
        · rw [if_pos hlen] at h2
          obtain rfl : j = i := by omega
          exact hxi
        · rw [if_neg hlen] at h2
          by_cases hj : j = i
          · rw [hj]
            exact hxi
          · exact hc j h1 (by omega)
      refine zeroes_spec hxs ?_ hc' (Or.inr ?_)
      · by_cases hlt : longest.len < current.len + 1
        · rw [if_pos hlt]
          exact hc'
        · rw [if_neg hlt]
          exact hl
      · simp only
        split <;> omega
    · exact zeroes_spec hxs hl (fun j h1 h2 => by simp only at h1 h2; omega) (Or.inl rfl)

/-- A list is what stands before a run of zeros, the zeros, and what stands after it. -/
theorem zeroSpan_split {l : List UInt16} {z : Span} (h : ZeroSpan l z) (hz : 0 < z.len) :
    z.start + z.len ≤ l.length ∧ l = l.take z.start ++ List.replicate z.len 0 ++ l.drop (z.start + z.len) := by
  have hle : z.start + z.len ≤ l.length := by
    have := h (z.start + z.len - 1) (by omega) (by omega)
    obtain ⟨hlt, _⟩ := List.getElem?_eq_some_iff.1 this
    omega
  refine ⟨hle, ?_⟩
  have hmid : (l.drop z.start).take z.len = List.replicate z.len 0 := by
    apply List.ext_getElem?
    intro j
    rw [List.getElem?_take, List.getElem?_drop, List.getElem?_replicate]
    split
    · exact h (z.start + j) (by omega) (by omega)
    · rfl
  rw [← hmid, List.append_assoc, ← List.drop_drop, List.take_append_drop, List.take_append_drop]

/-! ## The round trip -/

/-- Addresses in group notation are read back. -/
theorem readIpv6Addr_groups {a : Ipv6Addr} (h : a.isMapped = false) : readIpv6Addr a.toChars = some (a, []) := by
  have hz : ZeroSpan a.segments (zeroes a.segments 0 ⟨0, 0⟩ ⟨0, 0⟩) :=
    zeroes_spec rfl (fun j _ h2 => by simp only at h2; omega) (fun j _ h2 => by simp only at h2; omega) (Or.inl rfl)
  rw [Ipv6Addr.toChars, h]
  generalize zeroes a.segments 0 ⟨0, 0⟩ ⟨0, 0⟩ = z at hz
  simp only [Bool.false_eq_true, if_false]
  split
  · rename_i hlen
    obtain ⟨hle, hsplit⟩ := zeroSpan_split hz (by omega)
    rw [Ipv6Addr.length_segments] at hle
    generalize hpre : a.segments.take z.start = pre at hsplit
    generalize hpost : a.segments.drop (z.start + z.len) = post at hsplit
    have hpl : pre.length = z.start := by rw [← hpre, List.length_take, Ipv6Addr.length_segments]; omega
    have hql : post.length = 8 - (z.start + z.len) := by rw [← hpost, List.length_drop, Ipv6Addr.length_segments]
    have hdot : '.' ∉ fmtSubslice post := by
      cases post with
      | nil => simp [fmtSubslice]
      | cons x xs =>
        simp only [fmtSubslice, List.mem_append, not_or]
        exact ⟨dot_notMem_lowerHex x, dot_notMem_colonGroups xs⟩
    have hhead := readGroups_head pre 8 ("::".toList ++ fmtSubslice post) (by omega)
      (by simpa using hdot) (Or.inr ⟨_, rfl⟩)
    have htail := readGroups_head post (8 - (pre.length + 1)) [] (by omega) (by simp) (Or.inl rfl)
    rw [List.append_nil] at htail
    unfold readIpv6Addr
    rw [List.append_assoc, hhead]
    simp only
    rw [if_neg (by omega), if_neg (by decide)]
    simp only [show "::".toList = [':', ':'] from by decide, List.cons_append, List.nil_append, readGivenChar, if_true,
      Option.bind_eq_bind, Option.bind_some, htail, Option.pure_def]
    rw [hpl, hql, show 8 - z.start - (8 - (z.start + z.len)) = z.len by omega, ← hsplit,
      Ipv6Addr.ofSegments_segments]
  · have hhead := readGroups_head a.segments 8 [] (Nat.le_refl 8) (by simp) (Or.inl rfl)
    rw [List.append_nil] at hhead
    unfold readIpv6Addr
    rw [hhead]
    simp

theorem noDigit_dot (r : List Char) : NoDigit 10 ('.' :: r) := by
  intro c hc
  cases hc
  decide

theorem readNumber_decimal {n : Nat} (hn : n < 256) {rest : List Char} (h : NoDigit 10 rest) :
    readNumber 10 3 false 256 (decimal n ++ rest) = some (n, rest) :=
  readNumber_toDigits (by decide) (by decide) (by decide) (by omega) hn h

/-- A dotted quad is read back as its two segments. -/
theorem readIpv4Addr_octets (x y : UInt16) :
    readIpv4Addr (fmtOctets x ++ '.' :: fmtOctets y) = some ((x, y), []) := by
  have hx := x.toNat_lt
  have hy := y.toNat_lt
  have h1 := readNumber_decimal (n := x.toNat / 256) (by omega)
    (noDigit_dot (decimal (x.toNat % 256) ++ '.' :: fmtOctets y))
  have h2 := readNumber_decimal (n := x.toNat % 256) (by omega) (noDigit_dot (fmtOctets y))
  have h3 := readNumber_decimal (n := y.toNat / 256) (by omega) (noDigit_dot (decimal (y.toNat % 256)))
  have h4 := readNumber_decimal (n := y.toNat % 256) (by omega) (show NoDigit 10 [] from fun c hc => by cases hc)
  rw [List.append_nil] at h4
  simp only [fmtOctets] at h1 h2 ⊢
  simp only [readIpv4Addr, readOctet, readSeparator, if_true, Bool.false_eq_true, if_false, List.append_assoc,
    List.cons_append, h1, readGivenChar, Option.bind_eq_bind, Option.bind_some, h2, h3, h4, Option.pure_def]
  rw [Nat.div_add_mod', Nat.div_add_mod', UInt16.ofNat_toNat, UInt16.ofNat_toNat]

/-- A dotted quad starts with a digit. -/
theorem readIpv4Addr_noDigit {cs : List Char} (h : NoDigit 10 cs) : readIpv4Addr cs = none := by
  simp only [readIpv4Addr, readOctet, readSeparator, if_true, readNumber_none h]
  rfl

/-- Mapped addresses are read back. -/
theorem readIpv6Addr_mapped {a : Ipv6Addr} (h : a.isMapped = true) : readIpv6Addr a.toChars = some (a, []) := by
  obtain ⟨s0, s1, s2, s3, s4, s5, s6, s7⟩ := a
  simp only [Ipv6Addr.isMapped, Ipv6Addr.segments, List.take, beq_iff_eq, List.cons.injEq, and_true] at h
  obtain ⟨rfl, rfl, rfl, rfl, rfl, rfl⟩ := h
  have hquad := readIpv4Addr_octets s6 s7
  generalize hq : fmtOctets s6 ++ '.' :: fmtOctets s7 = q at hquad
  have hchars : (⟨0, 0, 0, 0, 0, 0xffff, s6, s7⟩ : Ipv6Addr).toChars = "::ffff:".toList ++ q := by
    have hm : (⟨0, 0, 0, 0, 0, 0xffff, s6, s7⟩ : Ipv6Addr).isMapped = true := rfl
    rw [Ipv6Addr.toChars, if_pos hm, ← hq, List.append_assoc]
  have hffff : readGroups 7 true ("ffff:".toList ++ q) = ([0xffff, s6, s7], true, []) := by
    have hv4 : readSeparator ':' true readIpv4Addr ("ffff:".toList ++ q) = none :=
      readIpv4Addr_noDigit fun c hc => by cases hc; decide
    have hg : readGroup true ("ffff:".toList ++ q) = some ((0xffff : UInt16).toNat, ':' :: q) :=
      readNumber_lowerHex 0xffff (noDigit_colon q)
    have hv4' : readSeparator ':' false readIpv4Addr (':' :: q) = some ((s6, s7), []) := hquad
    rw [readGroups_succ hv4, hg]
    simp only [readGroups_ipv4 hv4', UInt16.ofNat_toNat]
  have hhead : readGroups 8 true ("::ffff:".toList ++ q) = ([], false, "::ffff:".toList ++ q) := by
    have hv4 : readSeparator ':' true readIpv4Addr ("::ffff:".toList ++ q) = none :=
      readIpv4Addr_noDigit fun c hc => by cases hc; decide
    have hstops : Stops ("::ffff:".toList ++ q) := Or.inr ⟨_, rfl⟩
    rw [readGroups_succ hv4, readGroup_stops hstops]
  rw [hchars, readIpv6Addr, hhead]
  simp only [List.length_nil, Bool.false_eq_true, if_false]
  rw [if_neg (by decide)]
  simp only [show "::ffff:".toList = ':' :: ':' :: "ffff:".toList from by decide, List.cons_append, readGivenChar,
    if_true, Option.bind_eq_bind, Option.bind_some, hffff]
  rfl

/-- **Reading back what was written gives the address.** -/
theorem fromStr_toString (a : Ipv6Addr) : Ipv6Addr.fromStr a.toString = some a := by
  have h : readIpv6Addr a.toChars = some (a, []) := by
    cases hm : a.isMapped with
    | false => exact readIpv6Addr_groups hm
    | true => exact readIpv6Addr_mapped hm
  simp [Ipv6Addr.fromStr, Ipv6Addr.toString, String.toList_ofList, h]

end Lib

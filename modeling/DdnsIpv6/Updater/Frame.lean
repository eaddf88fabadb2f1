import DdnsIpv6.Updater.SetRecord
import Mathlib.Data.List.Induction

/-!
# The records that `CloudflareUpdater` touches

`set_record` should touch an AAAA record of its domain only (`TouchesOwn`). It changes the first record that it is
listed, and the list request asks for the name that the API reads in the URL. `urlencoding` escapes spaces only, which
decoding does not need (`formDecode_encodeSpaces`), so the API reads another name for every domain with a `#`, a `&`, a
`+`, a percent escape, a tab or newline, or a control character at its end (`queriesOwn_iff`).
-/

namespace DdnsIpv6

open Lib Lib.Url

/-! ## The encoder -/

/-- `urlencoding`, on characters. -/
def encodeSpaces (d : List Char) : List Char := d.flatMap fun c => if c = ' ' then "%20".toList else [c]

theorem toList_urlencoding (s : String) : (urlencoding s).toList = encodeSpaces s.toList := String.toList_ofList

variable {d : List Char}

@[simp] theorem encodeSpaces_nil : encodeSpaces [] = [] := rfl

@[simp] theorem encodeSpaces_space (d : List Char) :
    encodeSpaces (' ' :: d) = '%' :: '2' :: '0' :: encodeSpaces d := rfl

theorem encodeSpaces_cons {c : Char} (h : c ≠ ' ') (d : List Char) :
    encodeSpaces (c :: d) = c :: encodeSpaces d := by
  rw [encodeSpaces, List.flatMap_cons, if_neg h]
  rfl

/-- The encoder makes no new escape out of the characters after a `%`. -/
theorem escaped_encodeSpaces (h : ∀ a b r, d = a :: b :: r → escaped a b = none) {a b : Char} {r : List Char}
    (he : encodeSpaces d = a :: b :: r) : escaped a b = none := by
  cases d with
  | nil => cases he
  | cons c cs =>
    by_cases hc : c = ' '
    · subst hc
      rw [encodeSpaces_space, List.cons.injEq] at he
      rw [← he.1]
      exact (escaped_percent b).1
    · rw [encodeSpaces_cons hc, List.cons.injEq] at he
      obtain ⟨rfl, he⟩ := he
      cases cs with
      | nil => cases he
      | cons c' cs =>
        by_cases hc' : c' = ' '
        · subst hc'
          rw [encodeSpaces_space, List.cons.injEq] at he
          rw [← he.1]
          exact (escaped_percent c).2
        · rw [encodeSpaces_cons hc', List.cons.injEq] at he
          rw [← he.1]
          exact h c c' cs rfl

/-- A space is no digit of an escape. -/
theorem ne_space_of_escaped {a b : Char} {byte : UInt8} (h : escaped a b = some byte) : a ≠ ' ' ∧ b ≠ ' ' := by
  have hspace : hexValue ' ' = none := rfl
  constructor
  · rintro rfl
    rw [escaped, hspace] at h
    cases h
  · rintro rfl
    rw [escaped, hspace] at h
    cases hx : hexValue a <;> rw [hx] at h <;> cases h

/-- A character that starts no escape, encoded and decoded. -/
theorem formDecode_encodeSpaces_cons {c : Char} (h : ∀ a b r, c = '%' → d = a :: b :: r → escaped a b = none)
    (ih : formDecode (encodeSpaces d) = formDecode d) :
    formDecode (encodeSpaces (c :: d)) = formDecode (c :: d) := by
  rw [formDecode_cons h]
  by_cases hc : c = ' '
  · subst hc
    rw [encodeSpaces_space, formDecode, show escaped '2' '0' = some 0x20 from rfl, ih]
    rfl
  · rw [encodeSpaces_cons hc, formDecode_cons fun a b r hp he => escaped_encodeSpaces (h · · · hp) he, ih]

/-- **Decoding does not need the encoder.** -/
theorem formDecode_encodeSpaces (d : List Char) : formDecode (encodeSpaces d) = formDecode d := by
  induction d using formDecode.induct with
  | case1 => rfl
  | case2 a b cs byte h ih =>
    obtain ⟨ha, hb⟩ := ne_space_of_escaped h
    rw [encodeSpaces_cons (by decide), encodeSpaces_cons ha, encodeSpaces_cons hb, formDecode, h, formDecode, h, ih]
  | case3 a b cs h ih =>
    refine formDecode_encodeSpaces_cons (fun a' b' r _ he => ?_) ih
    rw [List.cons.injEq, List.cons.injEq] at he
    rw [← he.1, ← he.2.1, h]
  | case4 c cs hne ih => exact formDecode_encodeSpaces_cons (fun a b r hc he => (hne a b r hc he).elim) ih

/-! ## What the API reads -/

/-- A control character, dropped at the end of a URL; the spaces there are encoded. -/
def isControl (c : Char) : Bool := c.toNat < 0x20

/-- The part of a domain that the API reads as the name. -/
def seen (d : List Char) : List Char :=
  (((d.rdropWhile isControl).filter fun c => !isRemoved c).takeWhile (· != '#')).takeWhile (· != '&')

theorem takeWhile_encodeSpaces {p : Char → Bool} (hp : [' ', '%', '2', '0'].all p = true) (d : List Char) :
    (encodeSpaces d).takeWhile p = encodeSpaces (d.takeWhile p) := by
  simp only [List.all_cons, List.all_nil, Bool.and_true, Bool.and_eq_true] at hp
  obtain ⟨hspace, hpercent, h2, h0⟩ := hp
  induction d with
  | nil => rfl
  | cons c d ih =>
    by_cases hc : c = ' '
    · subst hc
      rw [encodeSpaces_space, List.takeWhile_cons_of_pos hpercent, List.takeWhile_cons_of_pos h2,
        List.takeWhile_cons_of_pos h0, List.takeWhile_cons_of_pos hspace, ih, encodeSpaces_space]
    · by_cases hpc : p c = true
      · rw [encodeSpaces_cons hc, List.takeWhile_cons_of_pos hpc, List.takeWhile_cons_of_pos hpc, ih,
          encodeSpaces_cons hc]
      · rw [encodeSpaces_cons hc, List.takeWhile_cons_of_neg hpc, List.takeWhile_cons_of_neg hpc, encodeSpaces_nil]

theorem filter_encodeSpaces {p : Char → Bool} (hp : [' ', '%', '2', '0'].all p = true) (d : List Char) :
    (encodeSpaces d).filter p = encodeSpaces (d.filter p) := by
  simp only [List.all_cons, List.all_nil, Bool.and_true, Bool.and_eq_true] at hp
  obtain ⟨hspace, hpercent, h2, h0⟩ := hp
  induction d with
  | nil => rfl
  | cons c d ih =>
    by_cases hc : c = ' '
    · subst hc
      rw [encodeSpaces_space, List.filter_cons_of_pos hpercent, List.filter_cons_of_pos h2,
        List.filter_cons_of_pos h0, List.filter_cons_of_pos hspace, ih, encodeSpaces_space]
    · by_cases hpc : p c = true
      · rw [encodeSpaces_cons hc, List.filter_cons_of_pos hpc, List.filter_cons_of_pos hpc, ih, encodeSpaces_cons hc]
      · rw [encodeSpaces_cons hc, List.filter_cons_of_neg hpc, List.filter_cons_of_neg hpc, ih]

theorem rdropWhile_encodeSpaces (d : List Char) :
    (encodeSpaces d).rdropWhile isTrimmed = encodeSpaces (d.rdropWhile isControl) := by
  induction d using List.reverseRecOn with
  | nil => rfl
  | append_singleton d c ih =>
    have happend : encodeSpaces (d ++ [c]) = encodeSpaces d ++ encodeSpaces [c] := List.flatMap_append
    by_cases hc : c = ' '
    · subst hc
      rw [List.rdropWhile_concat_neg _ _ _ (by decide), happend,
        show encodeSpaces d ++ encodeSpaces [' '] = (encodeSpaces d ++ ['%', '2']) ++ ['0'] by simp,
        List.rdropWhile_concat_neg _ _ _ (by decide)]
    · have hctl : isTrimmed c = isControl c := by
        have hne : c.toNat ≠ 0x20 := fun he => hc (Char.toNat_inj.1 he)
        rw [isTrimmed, isControl, decide_eq_decide]
        omega
      rw [happend, encodeSpaces_cons hc, encodeSpaces_nil]
      by_cases ht : isTrimmed c = true
      · rw [List.rdropWhile_concat_pos _ _ _ ht, List.rdropWhile_concat_pos _ _ _ (hctl ▸ ht), ih]
      · rw [List.rdropWhile_concat_neg _ _ _ ht, List.rdropWhile_concat_neg _ _ _ (hctl ▸ ht), happend,
          encodeSpaces_cons hc, encodeSpaces_nil]

/-- The name that the API decodes. -/
theorem queriedName_eq (domain : String) : queriedName domain = formDecode (seen domain.toList) := by
  rw [queriedName, readTail, toList_urlencoding, rdropWhile_encodeSpaces, filter_encodeSpaces (by decide),
    takeWhile_encodeSpaces (by decide), takeWhile_encodeSpaces (by decide), formDecode_encodeSpaces]
  rfl

/-- What the API reads is a part of the domain. -/
theorem seen_sublist (d : List Char) : (seen d).Sublist d := by
  refine ((List.takeWhile_sublist _).trans (List.takeWhile_sublist _)).trans ?_
  exact List.filter_sublist.trans (List.rdropWhile_prefix _ _).sublist

/-- The API reads the domain as it is. -/
structure UrlSafe (domain : String) : Prop where
  /-- The characters that end a name in a URL, or that are dropped from it. -/
  noSeparator : ∀ c ∈ domain.toList, c ≠ '#' ∧ c ≠ '&' ∧ isRemoved c = false
  /-- No `+` and no percent escape. -/
  noEscape : noEscape domain.toList = true
  noControlEnd : ∀ h : domain.toList ≠ [], isControl (domain.toList.getLast h) = false

/-- All of the domain is read. -/
theorem seen_eq_self_iff : seen d = d ↔ (∀ c ∈ d, c ≠ '#' ∧ c ≠ '&' ∧ isRemoved c = false) ∧
    ∀ h : d ≠ [], isControl (d.getLast h) = false := by
  constructor
  · intro h
    have hpart : (seen d).Sublist (d.rdropWhile isControl) :=
      ((List.takeWhile_sublist _).trans (List.takeWhile_sublist _)).trans List.filter_sublist
    refine ⟨fun c hc => ?_, ?_⟩
    · rw [← h, seen] at hc
      have hamp := List.mem_takeWhile_imp hc
      have hc := (List.takeWhile_sublist _).subset hc
      have hhash := List.mem_takeWhile_imp hc
      have hc := (List.takeWhile_sublist _).subset hc
      have hkeep := (List.mem_filter.1 hc).2
      exact ⟨bne_iff_ne.1 hhash, bne_iff_ne.1 hamp, by simpa using hkeep⟩
    · rw [h] at hpart
      have hself := (List.rdropWhile_prefix isControl d).sublist.antisymm hpart
      intro hne
      exact Bool.eq_false_iff.2 (List.rdropWhile_eq_self_iff.1 hself hne)
  · rintro ⟨hall, hlast⟩
    have hdrop : d.rdropWhile isControl = d :=
      List.rdropWhile_eq_self_iff.2 fun hne => by rw [hlast hne]; exact Bool.false_ne_true
    have hkeep : d.filter (fun c => !isRemoved c) = d :=
      List.filter_eq_self.2 fun c hc => by rw [(hall c hc).2.2]; rfl
    rw [seen, hdrop, hkeep, List.takeWhile_eq_self_iff.2 fun c hc => bne_iff_ne.2 (hall c hc).1,
      List.takeWhile_eq_self_iff.2 fun c hc => bne_iff_ne.2 (hall c hc).2.1]

/-- **The list request asks for the domain's own name** exactly when the API reads the domain as it is. -/
theorem queriesOwn_iff (domain : String) : QueriesOwn domain ↔ UrlSafe domain := by
  rw [QueriesOwn, queriedName_eq]
  constructor
  · intro h
    -- decoding and dropping make a text shorter, so none of them did anything
    have hlen := formDecode_length_le (seen domain.toList)
    rw [h] at hlen
    have hself := eq_of_sublist (seen_sublist domain.toList) hlen
    rw [hself] at h
    obtain ⟨hsep, hlast⟩ := seen_eq_self_iff.1 hself
    exact ⟨hsep, (formDecode_eq_utf8_iff _).1 h, hlast⟩
  · intro h
    rw [seen_eq_self_iff.2 ⟨h.noSeparator, h.noControlEnd⟩]
    exact (formDecode_eq_utf8_iff _).2 h.noEscape

/-! ## The frame of `set_record` -/

/-- At most one record was changed, and what was changed or created is an AAAA record of the domain. -/
structure TouchesOwn (domain : String) (before after : List CfDnsRecord) : Prop where
  replaced : ∀ r ∈ before, r ∉ after → r.type = "AAAA" ∧ r.name = domain
  written : ∀ r ∈ after, r ∉ before → r.type = "AAAA" ∧ r.name = domain
  one : ∀ r ∈ before, ∀ s ∈ before, r ∉ after → s ∉ after → r = s

variable {z : Zone} {domain addrStr : String}

theorem TouchesOwn.refl (domain : String) (rs : List CfDnsRecord) : TouchesOwn domain rs rs :=
  ⟨fun _ h h' => absurd h h', fun _ h h' => absurd h h', fun _ h _ _ h' => absurd h h'⟩

/-- A patch of an AAAA record of the domain. -/
theorem touchesOwn_patched {r : CfDnsRecord} (hr : r ∈ z.records) (htype : r.type = "AAAA") (hname : r.name = domain)
    (content : String) : TouchesOwn domain z.records (patched r.id content z.records) := by
  -- the only record that can be gone is the patched one
  have hgone : ∀ s ∈ z.records, s ∉ patched r.id content z.records → s = r := by
    intro s hs hgone
    by_contra hne
    refine hgone (List.mem_map.2 ⟨s, hs, if_neg fun hid => hne (z.eq_of_id_eq hs hr hid)⟩)
  refine ⟨?_, ?_, ?_⟩
  · intro s hs hs'
    rw [hgone s hs hs']
    exact ⟨htype, hname⟩
  · intro s hs hs'
    rcases mem_patched hs with ⟨hmem, -⟩ | ⟨t, ht, hid, rfl⟩
    · exact absurd hmem hs'
    · rw [z.eq_of_id_eq ht hr hid]
      exact ⟨htype, hname⟩
  · intro s hs t ht hs' ht'
    rw [hgone s hs hs', hgone t ht ht']

/-- A patch of a record with another content is seen. -/
theorem not_mem_patched {r : CfDnsRecord} {content : String} (hc : r.content ≠ content) (rs : List CfDnsRecord) :
    r ∉ patched r.id content rs := by
  intro h
  rcases mem_patched h with ⟨-, hne⟩ | ⟨s, -, -, he⟩
  · exact hne rfl
  · exact hc (congrArg CfDnsRecord.content he)

/-- A success with a first record that needs a change patched it. -/
theorem SetOutcome.patched_of_ok {r : CfDnsRecord} {rs after : List CfDnsRecord}
    (h : SetOutcome z domain addrStr (.ok ()) after) (hq : z.queried domain = r :: rs) (hc : r.content ≠ addrStr) :
    after = patched r.id addrStr z.records := by
  cases h with
  | correct r' rs' hq' hc' =>
    rw [hq, List.cons.injEq] at hq'
    exact absurd (hq'.1 ▸ hc') hc
  | updated r' rs' hq' hc' =>
    rw [hq, List.cons.injEq] at hq'
    rw [hq'.1]
  | created hq' =>
    rw [hq] at hq'
    cases hq'

/-- What `set_record` does is in the frame if the record that it changes is. -/
theorem touchesOwn_of_outcome {result : Except Error Unit} {after : List CfDnsRecord}
    (h : SetOutcome z domain addrStr result after)
    (hfirst : ∀ r rs, z.queried domain = r :: rs → r.content ≠ addrStr → r.name = domain) :
    TouchesOwn domain z.records after := by
  cases h with
  | failed e => exact .refl _ _
  | correct r rs hq hc => exact .refl _ _
  | updated r rs hq hc =>
    obtain ⟨hmem, htype, -⟩ := Zone.of_queried_cons hq
    exact touchesOwn_patched hmem htype (hfirst r rs hq hc) addrStr
  | created hq new hnew =>
    refine ⟨?_, ?_, ?_⟩
    · intro r hr hr'
      exact absurd (List.mem_append_left _ hr) hr'
    · intro r hr hr'
      rcases List.mem_append.1 hr with hr | hr
      · exact absurd hr hr'
      · exact ⟨(hnew r hr).type, (hnew r hr).name⟩
    · intro r hr s _ hr'
      exact absurd (List.mem_append_left _ hr) hr'

variable {api : ZoneApi} {token : String} {addr : Ipv6Addr}

/-- A listed record that needs a change is patched when all goes well, so it must be the domain's own. -/
theorem urlSafe_of_touchesOwn {r : CfDnsRecord}
    (h : TouchesOwn domain z.records
      ((api.updater token).setRecord api.http domain addr ⟨z, []⟩).2.state.records)
    (hr : r ∈ (z.queried domain).head?) (hc : r.content ≠ addr.toString) : UrlSafe domain := by
  obtain ⟨rs, hq⟩ := List.head?_eq_some_iff.1 hr
  obtain ⟨hmem, -, hname⟩ := Zone.of_queried_cons hq
  have hout := setRecord_outcome api token domain addr ⟨z, []⟩
  rw [setRecord_good api token domain addr z] at hout
  have hgone := not_mem_patched hc z.records
  rw [← hout.patched_of_ok hq hc] at hgone
  rw [← queriesOwn_iff, QueriesOwn, ← hname, (h.replaced r hmem hgone).2]

/-- **`set_record` touches its own record only**, whatever happens to its requests, exactly when the API reads the
domain as it is, or the first record that it is listed needs no change, or there is none. -/
theorem touchesOwn_iff : (∀ outcomes, TouchesOwn domain z.records
      ((api.updater token).setRecord api.http domain addr ⟨z, outcomes⟩).2.state.records) ↔
    UrlSafe domain ∨ ∀ r ∈ (z.queried domain).head?, r.content = addr.toString := by
  constructor
  · intro h
    refine or_iff_not_imp_left.2 fun hunsafe r hr => ?_
    by_contra hc
    exact hunsafe (urlSafe_of_touchesOwn (h []) hr hc)
  · intro h outcomes
    refine touchesOwn_of_outcome (setRecord_outcome api token domain addr ⟨z, outcomes⟩) fun r rs hq hc => ?_
    rcases h with h | h
    · obtain ⟨-, -, hname⟩ := Zone.of_queried_cons hq
      rw [(queriesOwn_iff domain).2 h, utf8_inj, String.toList_inj] at hname
      exact hname
    · exact absurd (h r (by rw [hq]; rfl)) hc

/-- The list request for `nas.example.com#lab` is answered with the record of `nas.example.com`. -/
theorem not_touchesOwn : ¬ ∀ outcomes, TouchesOwn "nas.example.com#lab" sampleZone.records
    ((sampleApi.updater "token").setRecord sampleApi.http "nas.example.com#lab" ⟨0x2001, 0xdb8, 2, 0, 0, 0, 0, 1⟩
      ⟨sampleZone, outcomes⟩).2.state.records := by
  intro h
  have hfirst : ⟨"r1", "AAAA", "nas.example.com", "2001:db8:9::1", 120⟩ ∈
      (sampleZone.queried "nas.example.com#lab").head? := by decide
  have hsafe := urlSafe_of_touchesOwn (h []) hfirst (by decide)
  exact absurd rfl (hsafe.noSeparator '#' (by decide)).1

end DdnsIpv6

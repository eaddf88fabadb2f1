import DdnsIpv6.Updater.Discipline
import DdnsIpv6.Updater.Frame

/-!
# No duplicate records

A list request and a creation are two requests: the second may have been carried out although the call failed, and the
updater cannot know. Yet it never makes a second AAAA record of a name (`setRecords_onePerName`): a request with its
retries is carried out once at most, since a `429` means that it was not (`performs_state`), and a creation follows only
a list that was empty.
-/

namespace DdnsIpv6

open Lib Lib.Url CloudflareUpdater

/-- The names of the AAAA records. -/
def aaaaNames (rs : List CfDnsRecord) : List String := (rs.filter (·.type = "AAAA")).map (·.name)

/-- No name has two AAAA records. -/
def OnePerName (z : Zone) : Prop := (aaaaNames z.records).Nodup

instance (z : Zone) : Decidable (OnePerName z) := inferInstanceAs (Decidable (List.Nodup _))

def isHostChar (c : Char) : Bool := c.isAlphanum || c == '-' || c == '_' || c == '.'

/-- The domain is made of letters, digits, `-`, `_` and `.`. -/
def HostName (domain : String) : Prop := ∀ c ∈ domain.toList, isHostChar c = true

instance (domain : String) : Decidable (HostName domain) :=
  decidable_of_iff (domain.toList.all isHostChar = true) List.all_eq_true

/-! ## Host names in a URL -/

/-- A character that stands for itself in a URL. -/
theorem hostChar {c : Char} (h : isHostChar c = true) :
    c ∉ ['%', '+', '#', '&'] ∧ isRemoved c = false ∧ isControl c = false := by
  simp only [isHostChar, Bool.or_eq_true, beq_iff_eq] at h
  rcases h with ((h | rfl) | rfl) | rfl
  · have htrim : isTrimmed c = false := by
      have hvisible := (isVisible_of_isAlphanum h).1
      rw [isVisible, Bool.and_eq_true, Bool.not_eq_true'] at hvisible
      exact hvisible.1
    refine ⟨?_, ?_, ?_⟩
    · simp only [List.mem_cons, List.not_mem_nil, or_false]
      rintro (rfl | rfl | rfl | rfl) <;> exact absurd h (by decide)
    · refine Bool.eq_false_iff.2 fun hr => ?_
      rw [isTrimmed_of_isRemoved hr] at htrim
      cases htrim
    · rw [isTrimmed, decide_eq_false_iff_not] at htrim
      rw [isControl, decide_eq_false_iff_not]
      omega
  · decide
  · decide
  · decide

theorem noEscape_of_forall {cs : List Char} (h : ∀ c ∈ cs, c ≠ '%' ∧ c ≠ '+') : noEscape cs = true := by
  induction cs using noEscape.induct with
  | case1 => rfl
  | case2 a b cs ih => exact absurd rfl (h '%' List.mem_cons_self).1
  | case3 c cs hne ih =>
    rw [List.forall_mem_cons] at h
    rw [noEscape.eq_3 c cs hne, ih h.2, bne_iff_ne.2 h.1.2]
    rfl

/-- **A host name is read as it is.** -/
theorem urlSafe_of_hostName {domain : String} (h : HostName domain) : UrlSafe domain where
  noSeparator := fun c hc => by
    obtain ⟨hne, hkept, -⟩ := hostChar (h c hc)
    refine ⟨?_, ?_, hkept⟩ <;> rintro rfl <;> exact hne (by decide)
  noEscape := by
    refine noEscape_of_forall fun c hc => ?_
    obtain ⟨hne, -, -⟩ := hostChar (h c hc)
    constructor <;> rintro rfl <;> exact hne (by decide)
  noControlEnd := fun hne => (hostChar (h _ (List.getLast_mem hne))).2.2

/-! ## One request with its retries -/

section Requests

variable (api : ZoneApi)

/-- A call whose answer is a `429` was not carried out. -/
def LimitNotApplied (o : Outcome api.service) : Prop :=
  ∀ req z response, o.heard req (.ok (api.serve req z).1) = .ok response → response.status = 429 → o.applied = false

/-- The API itself never answers with a `429`. -/
theorem serve_status (req : HttpRequest) (z : Zone) : (api.serve req z).1.status ≠ 429 := by
  unfold ZoneApi.serve
  dsimp only
  split
  · split <;> simp [listAnswer, refusal]
  · split
    · simp [refusal]
    · split <;> simp [recordAnswer, refusal]
  · split
    · split <;> simp [recordAnswer, refusal]
    · simp [refusal]
  · simp [refusal]

variable {api}

/-- What a call leaves: the zone as it was, or as the API leaves it, and as it was after a `429`. -/
theorem exchange_state {req : HttpRequest} {w : Remote api.service} (hw : ∀ o ∈ w.outcomes, LimitNotApplied api o) :
    ((api.http.exchange req w).after.state = w.state ∨
      (api.http.exchange req w).limited = false ∧ (api.http.exchange req w).after.state = (api.serve req w.state).2) ∧
    ∀ o ∈ (api.http.exchange req w).after.outcomes, LimitNotApplied api o := by
  obtain ⟨z, outcomes⟩ := w
  cases outcomes with
  | nil =>
    -- the call goes well
    have hafter : api.http.exchange req ⟨z, []⟩ = ⟨req, .ok (api.serve req z).1, ⟨(api.serve req z).2, []⟩⟩ := rfl
    rw [hafter]
    exact ⟨Or.inr ⟨beq_eq_false_iff_ne.2 (serve_status api req z), rfl⟩, fun _ ho => absurd ho List.not_mem_nil⟩
  | cons o os =>
    have hafter : api.http.exchange req ⟨z, o :: os⟩ = ⟨req, o.heard req (.ok (api.serve req z).1),
        ⟨if o.applied then (api.serve req z).2 else z, os⟩⟩ := rfl
    rw [hafter]
    refine ⟨?_, fun o' ho' => hw o' (List.mem_cons_of_mem _ ho')⟩
    cases happ : o.applied with
    | false => exact Or.inl rfl
    | true =>
      refine Or.inr ⟨?_, rfl⟩
      rw [Exchange.limited]
      dsimp only
      cases hh : o.heard req (.ok (api.serve req z).1) with
      | error e => rfl
      | ok response =>
        refine beq_eq_false_iff_ne.2 fun hs => ?_
        rw [hw o List.mem_cons_self req z response hh hs] at happ
        cases happ

/-- **A request with its retries is carried out once at most**, and its last call finds the zone as it was. -/
theorem performs_state {req : HttpRequest} {n : Nat} {w : Remote api.service}
    {xs : List (Exchange (Remote api.service))} {last : Exchange (Remote api.service)}
    (h : Performs api.http req n w xs last) (hw : ∀ o ∈ w.outcomes, LimitNotApplied api o) :
    (∀ x ∈ xs, (x.after.state = w.state ∨ x.after.state = (api.serve req w.state).2) ∧
      ∀ o ∈ x.after.outcomes, LimitNotApplied api o) ∧
    ∃ w', w'.state = w.state ∧ last = api.http.exchange req w' := by
  induction h with
  | last n w =>
    refine ⟨fun x hx => ?_, w, rfl, rfl⟩
    rw [List.mem_singleton.1 hx]
    obtain ⟨hstate, houtcomes⟩ := exchange_state hw
    exact ⟨hstate.imp_right And.right, houtcomes⟩
  | @retry n w xs last delay hl h ih =>
    obtain ⟨hstate, houtcomes⟩ := exchange_state hw
    -- after a `429` the zone is as it was
    have hsame : (api.http.sleep delay (api.http.exchange req w).after).state = w.state :=
      hstate.resolve_right fun hr => by
        rw [hl] at hr
        cases hr.1
    obtain ⟨hall, hlast⟩ := ih houtcomes
    rw [hsame] at hall hlast
    exact ⟨List.forall_mem_cons.2 ⟨⟨Or.inl hsame, houtcomes⟩, hall⟩, hlast⟩

end Requests

/-! ## The three requests -/

theorem aaaaNames_patched (id content : String) (rs : List CfDnsRecord) :
    aaaaNames (patched id content rs) = aaaaNames rs := by
  induction rs with
  | nil => rfl
  | cons r rs ih =>
    have hcons : patched id content (r :: rs) =
        (if r.id = id then r.withContent content else r) :: patched id content rs := rfl
    rw [hcons]
    unfold aaaaNames at ih ⊢
    by_cases hid : r.id = id <;> by_cases ht : r.type = "AAAA" <;> simp [hid, ht, ih, CfDnsRecord.withContent]

theorem mem_aaaaNames {name : String} {rs : List CfDnsRecord} :
    name ∈ aaaaNames rs ↔ ∃ r ∈ rs, r.type = "AAAA" ∧ r.name = name := by
  simp [aaaaNames, and_assoc]

section SetRecord

variable {api : ZoneApi} {token domain : String} {w : Remote api.service}

/-- The list request is no write. -/
theorem list_state {n : Nat} {lists : List (Exchange (Remote api.service))} {last : Exchange (Remote api.service)}
    (h : Performs api.http ((api.updater token).listRequest domain) n w lists last)
    (hw : ∀ o ∈ w.outcomes, LimitNotApplied api o) :
    ∀ x ∈ lists, x.after.state = w.state ∧ ∀ o ∈ x.after.outcomes, LimitNotApplied api o := by
  have hserve : (api.serve ((api.updater token).listRequest domain) w.state).2 = w.state :=
    congrArg Prod.snd (api.serve_list token w.state domain)
  intro x hx
  obtain ⟨hstate, houtcomes⟩ := (performs_state h hw).1 x hx
  rw [hserve, or_self] at hstate
  exact ⟨hstate, houtcomes⟩

/-- A successful list response is what the zone holds. -/
theorem list_result {n : Nat} {lists : List (Exchange (Remote api.service))} {last : Exchange (Remote api.service)}
    {r : CfApiResponse (List CfDnsRecord)}
    (h : Performs api.http ((api.updater token).listRequest domain) n w lists last)
    (hw : ∀ o ∈ w.outcomes, LimitNotApplied api o) (hr : Succeeded BodyText.asList lists r) :
    r.result.getD [] = w.state.queried domain := by
  obtain ⟨x, response, body, hx, ha, hs, ht, hp, hsuccess⟩ := hr
  obtain ⟨-, w', hw', hlast⟩ := performs_state h hw
  rw [h.getLast?, hlast, Option.some.injEq] at hx
  subst hx
  have hsend : (w'.send ((api.updater token).listRequest domain)).1 = .ok response := ha
  obtain ⟨hsame, -⟩ := Remote.send_ok w' _ ⟨response, body, hsend, hs, ht, r, hp, hsuccess⟩
  have hserve : (api.service.serve ((api.updater token).listRequest domain) w'.state).1 =
      .ok (listAnswer (w'.state.queried domain)) :=
    congrArg (fun a => Except.ok (Prod.fst a)) (api.serve_list token w'.state domain)
  rw [← listed_of_body ht hp, ← hsend, hsame rfl, hserve, hw']
  rfl

/-- A new record is the first of its name if none is listed. -/
theorem onePerName_create {z z' : Zone} {r : CfDnsRecord} (hone : OnePerName z) (hq : z.queried domain = [])
    (hd : HostName domain) (hr : r.name = domain) (hz : z'.records = z.records ++ [r]) : OnePerName z' := by
  have hown : utf8 domain.toList = queriedName domain := ((queriesOwn_iff domain).2 (urlSafe_of_hostName hd)).symm
  have hfresh : domain ∉ aaaaNames z.records := by
    rw [mem_aaaaNames]
    rintro ⟨s, hs, ht, rfl⟩
    have hmem : s ∈ z.queried s.name := List.mem_filter.2 ⟨hs, decide_eq_true ⟨ht, hown⟩⟩
    rw [hq] at hmem
    exact List.not_mem_nil hmem
  rw [OnePerName, hz, aaaaNames, List.filter_append, List.map_append, ← aaaaNames]
  by_cases ht : r.type = "AAAA"
  · rw [List.filter_singleton, decide_eq_true ht, cond_true, List.map_singleton, hr]
    exact List.nodup_append.2 ⟨hone, List.nodup_singleton _, fun a ha b hb he =>
      hfresh (by rw [← List.mem_singleton.1 hb, ← he]; exact ha)⟩
  · rw [List.filter_singleton, decide_eq_false ht, cond_false, List.map_nil, List.append_nil]
    exact hone

/-- What a request may do, its retries may. -/
theorem performs_onePerName {req : HttpRequest} {n : Nat} {xs : List (Exchange (Remote api.service))}
    {last : Exchange (Remote api.service)} (h : Performs api.http req n w xs last)
    (hw : ∀ o ∈ w.outcomes, LimitNotApplied api o) (hone : OnePerName w.state)
    (hserve : OnePerName (api.serve req w.state).2) :
    ∀ x ∈ xs, OnePerName x.after.state ∧ ∀ o ∈ x.after.outcomes, LimitNotApplied api o := by
  intro x hx
  obtain ⟨hstate | hstate, houtcomes⟩ := (performs_state h hw).1 x hx
  · exact ⟨hstate ▸ hone, houtcomes⟩
  · exact ⟨hstate ▸ hserve, houtcomes⟩

/-- **A call of `set_record`** makes no duplicates. -/
theorem setExchanges_onePerName {addr : Ipv6Addr} {lists writes : List (Exchange (Remote api.service))}
    (h : SetExchanges (api.updater token) api.http domain addr.toString w lists writes) (hd : HostName domain)
    (hw : ∀ o ∈ w.outcomes, LimitNotApplied api o) (hone : OnePerName w.state) :
    ∀ x ∈ lists ++ writes, OnePerName x.after.state ∧ ∀ o ∈ x.after.outcomes, LimitNotApplied api o := by
  have hlists : ∀ x : Exchange (Remote api.service), (x.after.state = w.state ∧
      ∀ o ∈ x.after.outcomes, LimitNotApplied api o) → OnePerName x.after.state ∧
      ∀ o ∈ x.after.outcomes, LimitNotApplied api o := fun x hx => ⟨hx.1 ▸ hone, hx.2⟩
  cases h with
  | list hl =>
    rw [List.append_nil]
    exact fun x hx => hlists x (list_state hl hw x hx)
  | patch hl hs hr hc hwrite =>
    obtain ⟨hstate, houtcomes⟩ := list_state hl hw _ hl.last_mem
    have hq := list_result hl hw hs
    rw [hr, Option.getD_some] at hq
    obtain ⟨hmem, -⟩ := Zone.of_queried_cons hq.symm
    obtain ⟨_, z', he, hz'⟩ := api.serve_patch token (List.mem_map_of_mem hmem) (toString_valid addr)
    refine List.forall_mem_append.2 ⟨fun x hx => hlists x (list_state hl hw x hx),
      performs_onePerName hwrite houtcomes (hstate ▸ hone) ?_⟩
    rw [hstate]
    change OnePerName (api.serve (api.patchRequest token _ addr.toString) w.state).2
    rw [he, OnePerName, hz', aaaaNames_patched]
    exact hone
  | create hl hs hr hwrite =>
    obtain ⟨hstate, houtcomes⟩ := list_state hl hw _ hl.last_mem
    have hq := list_result hl hw hs
    rw [hr] at hq
    obtain ⟨z', he, hz'⟩ := api.serve_create token w.state domain (toString_valid addr)
    refine List.forall_mem_append.2 ⟨fun x hx => hlists x (list_state hl hw x hx),
      performs_onePerName hwrite houtcomes (hstate ▸ hone) ?_⟩
    rw [hstate]
    change OnePerName (api.serve (api.createRequest token domain addr.toString) w.state).2
    rw [he]
    exact onePerName_create hone hq.symm hd rfl hz'

end SetRecord

/-! ## Runs -/

/-- One call of `set_record` after the other, whatever their results are. -/
def setRecords {σ : Type} (self : CloudflareUpdater) (http : Http σ) : List (String × Ipv6Addr) → σ → σ
  | [], w => w
  | (domain, addr) :: calls, w => setRecords self http calls (self.setRecord http domain addr w).2

section Runs

variable {api : ZoneApi} {token : String}

/-- A world whose zone and whose record hold no duplicates, and whose calls to come apply nothing that is answered with
a `429`. -/
structure NoDuplicates (api : ZoneApi) (v : Recorded (Remote api.service)) : Prop where
  zone : OnePerName v.world.state
  log : ∀ x ∈ v.log, OnePerName x.after.state
  outcomes : ∀ o ∈ v.world.outcomes, LimitNotApplied api o

/-- One call. -/
theorem setRecord_noDuplicates {domain : String} (addr : Ipv6Addr) {v : Recorded (Remote api.service)}
    (hd : HostName domain) (hv : NoDuplicates api v) :
    NoDuplicates api ((api.updater token).setRecord api.http.recording domain addr v).2 := by
  obtain ⟨lists, writes, ⟨x, hx, hworld⟩, hlog, hexchanges, -⟩ :=
    setRecord_recording (api.updater token) api.http domain addr v.world
  have hall := setExchanges_onePerName hexchanges hd hv.outcomes hv.zone
  rw [show v = ⟨v.world, v.log⟩ from rfl, hlog v.log, hworld]
  exact {
    zone := (hall x hx).1
    log := List.forall_mem_append.2 ⟨hv.log, fun y hy => (hall y hy).1⟩
    outcomes := (hall x hx).2 }

theorem setRecords_noDuplicates {calls : List (String × Ipv6Addr)} (hd : ∀ c ∈ calls, HostName c.1)
    {v : Recorded (Remote api.service)} (hv : NoDuplicates api v) :
    NoDuplicates api (setRecords (api.updater token) api.http.recording calls v) := by
  induction calls generalizing v with
  | nil => exact hv
  | cons c calls ih =>
    rw [List.forall_mem_cons] at hd
    exact ih hd.2 (setRecord_noDuplicates c.2 hd.1 hv)

/-- The calls without their record. -/
theorem setRecords_recording_world {σ : Type} (self : CloudflareUpdater) (http : Http σ)
    (calls : List (String × Ipv6Addr)) (v : Recorded σ) :
    (setRecords self http.recording calls v).world = setRecords self http calls v.world := by
  induction calls generalizing v with
  | nil => rfl
  | cons c calls ih =>
    obtain ⟨lists, writes, -, hlog, -⟩ := setRecord_recording self http c.1 c.2 v.world
    rw [setRecords, setRecords, ih, show v = ⟨v.world, v.log⟩ from rfl, hlog]

/-- **No duplicate records.** Whatever happens to the requests of any calls for host names, as long as a `429` means
that nothing was done, no name has two AAAA records after any of the requests, if none had at the start. -/
theorem onePerName_throughout {calls : List (String × Ipv6Addr)} {z : Zone} {outcomes : List (Outcome api.service)}
    (hd : ∀ c ∈ calls, HostName c.1) (hone : OnePerName z) (hlimit : ∀ o ∈ outcomes, LimitNotApplied api o) :
    OnePerName (setRecords (api.updater token) api.http calls ⟨z, outcomes⟩).state ∧
    ∀ x ∈ (setRecords (api.updater token) api.http.recording calls ⟨⟨z, outcomes⟩, []⟩).log,
      OnePerName x.after.state := by
  have hv : NoDuplicates api ⟨⟨z, outcomes⟩, []⟩ := ⟨hone, fun _ h => absurd h List.not_mem_nil, hlimit⟩
  have hrun : NoDuplicates api (setRecords (api.updater token) api.http.recording calls ⟨⟨z, outcomes⟩, []⟩) :=
    setRecords_noDuplicates hd hv
  rw [← setRecords_recording_world (api.updater token) api.http calls ⟨⟨z, outcomes⟩, []⟩]
  exact ⟨hrun.zone, hrun.log⟩

/-- A call that is carried out, but whose answer is lost. -/
def lostAnswer (api : ZoneApi) : Outcome api.service :=
  ⟨true, fun _ _ => .error "connection reset by peer", fun _ _ ⟨_, _, h, _⟩ => nomatch h⟩

/-- A call that is refused with a `429`. -/
def rateLimited (api : ZoneApi) : Outcome api.service where
  applied := false
  heard := fun _ _ => .ok (refusal 429 "rate limited")
  honest := fun _ _ ⟨response, _, h, hs, _⟩ => by
    cases h
    cases hs

/-- The list request is tried twice, the answer to the creation is lost, and the next call patches the record. -/
theorem onePerName_lost : OnePerName (setRecords (sampleApi.updater "token") sampleApi.http
      [("nas.example.com", ⟨0x2001, 0xdb8, 2, 0, 0, 0, 0, 1⟩), ("nas.example.com", ⟨0x2001, 0xdb8, 3, 0, 0, 0, 0, 1⟩)]
      ⟨⟨[], by decide, by decide, by decide⟩, [rateLimited sampleApi, .good _, lostAnswer sampleApi]⟩).state := by
  have hhosts : ∀ c ∈ [("nas.example.com", (⟨0x2001, 0xdb8, 2, 0, 0, 0, 0, 1⟩ : Ipv6Addr)),
      ("nas.example.com", ⟨0x2001, 0xdb8, 3, 0, 0, 0, 0, 1⟩)], HostName c.1 :=
    List.forall_mem_cons.2 ⟨by decide, List.forall_mem_singleton.2 (by decide)⟩
  have houtcomes : ∀ o ∈ [rateLimited sampleApi, .good _, lostAnswer sampleApi], LimitNotApplied sampleApi o := by
    refine List.forall_mem_cons.2 ⟨fun _ _ _ _ _ => rfl, List.forall_mem_cons.2 ⟨fun req z response h hs => ?_,
      List.forall_mem_singleton.2 fun _ _ _ h _ => nomatch h⟩⟩
    cases h
    exact absurd hs (serve_status sampleApi req z)
  exact (onePerName_throughout hhosts (by decide) houtcomes).1

end Runs

end DdnsIpv6

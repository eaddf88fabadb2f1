import DdnsIpv6.Updater.Discipline
import DdnsIpv6.Updater.Zone

/-!
# What `CloudflareUpdater::set_record` does to a zone

`requestLoop_spec` is about one request with its retries, whatever happens to the calls: it keeps what the request
keeps, and a result with `success` comes from an honest response to the last call. `setRecord_outcome` says from it
everything that `set_record` can do to a zone (`SetOutcome`).
-/

namespace DdnsIpv6

open Lib CloudflareUpdater

variable {α : Type} {parse : BodyText → Except String (CfApiResponse α)}

/-! ## One request -/

/-- What the parser finds successful in a response to a request of this kind reports success. -/
def ReadsSuccess (method : Method) (parse : BodyText → Except String (CfApiResponse α)) : Prop :=
  ∀ body r, parse body = .ok r → r.success = true →
    match method with
    | .get => ∃ r, body.asList = .ok r ∧ r.success = true
    | .patch | .post => ∃ r, body.asRecord = .ok r ∧ r.success = true

theorem readsSuccess_get : ReadsSuccess .get BodyText.asList := fun _ r h hs => ⟨r, h, hs⟩

theorem readsSuccess_patch : ReadsSuccess .patch BodyText.asRecord := fun _ r h hs => ⟨r, h, hs⟩

theorem readsSuccess_post : ReadsSuccess .post BodyText.asRecord := fun _ r h hs => ⟨r, h, hs⟩

section Requests

variable (api : ZoneApi) (self : CloudflareUpdater) {method : Method} {path : String} {body : Option CfBody}
  {I : Zone → Prop}

/-- A response that reads as a success is honest: the request was carried out in a state with `I`, which is then `t`,
and the response lists what the API did. -/
def Honest (req : HttpRequest) (I : Zone → Prop) (response : HttpResponse) (t : Zone) : Prop :=
  ∃ z, I z ∧ (req.method = .get → listed (.ok response) = listed (.ok (api.serve req z).1)) ∧ t = (api.serve req z).2

/-- One call: what the request keeps is kept, and a response that reads as a success is honest. -/
theorem send_spec (path : String) (hparse : ReadsSuccess method parse) {req : HttpRequest}
    (hmethod : req.method = method) (hI : ∀ z, I z → I (api.serve req z).2) {w w' : Remote api.service}
    {answer : Except String HttpResponse} (hi : I w.state) (hs : api.http.send req w = (answer, w')) :
    I w'.state ∧ ∀ response r, answer = .ok response → readResponse parse path response = .ok r → r.success = true →
      Honest api req I response w'.state := by
  have hinv : I (w.send req).2.state := Remote.send_inv hI hi
  have hok := Remote.send_ok w req
  rw [ZoneApi.http_send] at hs
  rw [hs] at hinv hok
  refine ⟨hinv, ?_⟩
  rintro response r rfl hread hsuccess
  obtain ⟨text, htext, hstatus, hp⟩ := readResponse_ok hread
  obtain ⟨hsame, hstate⟩ := hok ⟨response, text, rfl, hstatus, htext, by
    rw [hmethod]
    exact hparse text r hp hsuccess⟩
  exact ⟨w.state, hi, hsame, hstate⟩

/-- The steps of a request with its retries: what `send_spec` says of one call, of the last one. -/
theorem Retries.spec {api : ZoneApi} (path : String) (hparse : ReadsSuccess method parse) {req : HttpRequest}
    (hmethod : req.method = method) (hI : ∀ z, I z → I (api.serve req z).2) {n : Nat} {w : Remote api.service}
    {steps : List (HttpStep (Remote api.service))} {last : Exchange (Remote api.service)}
    (h : Retries api.http req n w steps last) (hi : I w.state) :
    I last.after.state ∧ ∀ response r, last.answer = .ok response → readResponse parse path response = .ok r →
      r.success = true → Honest api req I response last.after.state := by
  induction h with
  | last w _ => exact send_spec api path hparse hmethod hI hi rfl
  | retry hl _ ih =>
    -- the API is asked again; sleeping leaves the zone alone
    exact ih (send_spec api path hparse hmethod hI hi rfl).1

/-- **A request with its retries** keeps what the request keeps. A result with `success` was read from an honest
response to the last call, in some state that the calls before it left. -/
theorem requestLoop_spec (hparse : ReadsSuccess method parse)
    (hI : ∀ z, I z → I (api.serve (self.httpRequest method path body) z).2) (attempts : Nat)
    (w : Remote api.service) (hi : I w.state) :
    I (self.requestLoop api.http parse method path body attempts w).2.state ∧
    ∀ r, (self.requestLoop api.http parse method path body attempts w).1 = .ok r → r.success = true →
      ∃ response, readResponse parse path response = .ok r ∧
        Honest api (self.httpRequest method path body) I response
          (self.requestLoop api.http parse method path body attempts w).2.state := by
  obtain ⟨steps, last, hsteps, hout, -⟩ := requestLoop_steps self api.http parse method path body attempts w
  obtain ⟨hinv, hok⟩ := hsteps.spec path hparse rfl hI hi
  rw [hout]
  refine ⟨hinv, fun r h hsuccess => ?_⟩
  cases ha : last.answer with
  | error e =>
    rw [ha] at h
    cases h
  | ok response =>
    rw [ha] at h
    exact ⟨response, h, hok response r ha h hsuccess⟩

theorem requestWithRetry_spec (hparse : ReadsSuccess method parse)
    (hI : ∀ z, I z → I (api.serve (self.httpRequest method path body) z).2) {w : Remote api.service}
    (hi : I w.state) {out : Except Error (CfApiResponse α) × Remote api.service}
    (hout : self.requestWithRetry api.http parse method path body w = out) :
    I out.2.state ∧ ∀ r, out.1 = .ok r → r.success = true →
      ∃ response, readResponse parse path response = .ok r ∧
        Honest api (self.httpRequest method path body) I response out.2.state := by
  subst hout
  exact requestLoop_spec api self hparse hI 2 w hi

/-- A request when all calls go well. -/
theorem requestWithRetry_good (parse : BodyText → Except String (CfApiResponse α)) {z z' : Zone}
    {response : HttpResponse} (h : api.serve (self.httpRequest method path body) z = (response, z'))
    (hstatus : response.status ≠ 429) : self.requestWithRetry api.http parse method path body ⟨z, []⟩ =
      (readResponse parse path response, ⟨z', []⟩) := by
  have hs : api.http.send (self.httpRequest method path body) ⟨z, []⟩ = (.ok response, ⟨z', []⟩) := by
    rw [ZoneApi.http_send, Remote.send_good]
    simp only [ZoneApi.service, h]
  simp only [requestWithRetry, requestLoop, request, hs, if_neg hstatus]

end Requests

/-! ## The three requests of `set_record` -/

section SetRecord

variable (api : ZoneApi) (token : String) {domain id content : String} {w : Remote api.service}

/-- The records that a list response holds. -/
theorem listed_of_read {path : String} {response : HttpResponse} {r : CfApiResponse (List CfDnsRecord)}
    (h : readResponse BodyText.asList path response = .ok r) : listed (.ok response) = r.result.getD [] := by
  obtain ⟨text, htext, -, hp⟩ := readResponse_ok h
  exact listed_of_body htext hp

/-- The list request leaves the zone alone, and its successful response holds the records that it asks for. -/
theorem list_spec {out : Except Error (CfApiResponse (List CfDnsRecord)) × Remote api.service}
    (hout : (api.updater token).requestWithRetry api.http BodyText.asList .get
      ((api.updater token).listPath domain) none w = out) :
    out.2.state = w.state ∧ ∀ r, out.1 = .ok r → r.success = true → r.result.getD [] = w.state.queried domain := by
  have hserve : ∀ z, api.serve ((api.updater token).httpRequest .get ((api.updater token).listPath domain) none) z =
      (listAnswer (z.queried domain), z) := fun z => api.serve_list token z domain
  obtain ⟨hstate, hok⟩ := requestWithRetry_spec api (api.updater token) (I := (· = w.state)) readsSuccess_get
    (fun z hz => by rw [hserve]; exact hz) rfl hout
  refine ⟨hstate, fun r hr hs => ?_⟩
  obtain ⟨response, hread, z, rfl, hsame, -⟩ := hok r hr hs
  rw [← listed_of_read hread, hsame rfl, hserve]
  rfl

/-- The zone after a patch request with its retries. -/
theorem patch_spec {out : Except Error (CfApiResponse CfDnsRecord) × Remote api.service}
    (hid : id ∈ w.state.records.map (·.id)) (hvalid : (Ipv6Addr.fromStr content).isSome = true)
    (hout : (api.updater token).requestWithRetry api.http BodyText.asRecord .patch
      ((api.updater token).recordPath id) (some (.updateRecord content)) w = out) :
    (out.2.state.records = w.state.records ∨ out.2.state.records = patched id content w.state.records) ∧
    ∀ r, out.1 = .ok r → r.success = true → out.2.state.records = patched id content w.state.records := by
  have hserve : ∀ z : Zone, z.records = w.state.records ∨ z.records = patched id content w.state.records →
      (api.serve ((api.updater token).httpRequest .patch ((api.updater token).recordPath id)
        (some (.updateRecord content))) z).2.records = patched id content w.state.records := by
    intro z hz
    have hmem : id ∈ z.records.map (·.id) := by
      rcases hz with hz | hz
      · rwa [hz]
      · rwa [hz, map_id_patched]
    obtain ⟨r, z', he, hrecords⟩ := api.serve_patch token hmem hvalid
    rw [ZoneApi.patchRequest] at he
    rw [he]
    rcases hz with hz | hz
    · rw [hrecords, hz]
    · rw [hrecords, hz, patched_patched]
  obtain ⟨hstate, hok⟩ := requestWithRetry_spec api (api.updater token)
    (I := fun z => z.records = w.state.records ∨ z.records = patched id content w.state.records) readsSuccess_patch
    (fun z hz => Or.inr (hserve z hz)) (Or.inl rfl) hout
  refine ⟨hstate, fun r hr hs => ?_⟩
  obtain ⟨-, -, z, hz, -, hlast⟩ := hok r hr hs
  rw [hlast]
  exact hserve z hz

/-- A record as `set_record` creates it. -/
structure CreatedFor (domain content : String) (r : CfDnsRecord) : Prop where
  type : r.type = "AAAA"
  name : r.name = domain
  content : r.content = content
  ttl : r.ttl = 120

/-- The zone after a create request with its retries: also calls without a good answer may have created records. -/
theorem create_spec {out : Except Error (CfApiResponse CfDnsRecord) × Remote api.service}
    (hvalid : (Ipv6Addr.fromStr content).isSome = true)
    (hout : (api.updater token).requestWithRetry api.http BodyText.asRecord .post (api.updater token).recordsPath
      (some (.createRecord "AAAA" domain content 120)) w = out) :
    ∃ new, out.2.state.records = w.state.records ++ new ∧ (∀ r ∈ new, CreatedFor domain content r) ∧
      ∀ r, out.1 = .ok r → r.success = true → new ≠ [] := by
  have hserve : ∀ z : Zone, ∃ r, CreatedFor domain content r ∧
      (api.serve ((api.updater token).httpRequest .post (api.updater token).recordsPath
        (some (.createRecord "AAAA" domain content 120))) z).2.records = z.records ++ [r] := by
    intro z
    obtain ⟨z', he, hrecords⟩ := api.serve_create token z domain hvalid
    rw [ZoneApi.createRequest] at he
    rw [he]
    exact ⟨_, ⟨rfl, rfl, rfl, rfl⟩, hrecords⟩
  obtain ⟨⟨new, hnew, hcreated⟩, hok⟩ := requestWithRetry_spec api (api.updater token)
    (I := fun z => ∃ new, z.records = w.state.records ++ new ∧ ∀ r ∈ new, CreatedFor domain content r)
    readsSuccess_post
    (fun z ⟨new, hz, hall⟩ => by
      obtain ⟨r, hr, hrecords⟩ := hserve z
      refine ⟨new ++ [r], ?_, ?_⟩
      · rw [hrecords, hz, List.append_assoc]
      · intro s hs
        rcases List.mem_append.1 hs with hs | hs
        · exact hall s hs
        · rw [List.mem_singleton.1 hs]
          exact hr)
    ⟨[], (List.append_nil _).symm, fun r hr => absurd hr List.not_mem_nil⟩ hout
  refine ⟨new, hnew, hcreated, fun r hr hs => ?_⟩
  -- the last call added a record to what the calls before it left
  obtain ⟨-, -, z, ⟨before, hz, -⟩, -, hlast⟩ := hok r hr hs
  obtain ⟨s, -, hrecords⟩ := hserve z
  rintro rfl
  rw [hlast, hrecords, hz] at hnew
  have hlen := congrArg List.length hnew
  simp only [List.length_append, List.length_nil, List.length_singleton] at hlen
  omega

/-! ## `set_record` -/

/-- Everything that `set_record` can do: its result, and the records afterwards. -/
inductive SetOutcome (z : Zone) (domain addrStr : String) : Except Error Unit → List CfDnsRecord → Prop
  /-- It failed before a write was carried out. -/
  | failed (e : Error) : SetOutcome z domain addrStr (.error e) z.records
  /-- The first record was already correct. -/
  | correct (r : CfDnsRecord) (rs : List CfDnsRecord) (hq : z.queried domain = r :: rs) (hc : r.content = addrStr) :
      SetOutcome z domain addrStr (.ok ()) z.records
  /-- The first record was patched. -/
  | updated (r : CfDnsRecord) (rs : List CfDnsRecord) (hq : z.queried domain = r :: rs) (hc : r.content ≠ addrStr)
      (result : Except Error Unit) : SetOutcome z domain addrStr result (patched r.id addrStr z.records)
  /-- Records were created. -/
  | created (hq : z.queried domain = []) (new : List CfDnsRecord) (hnew : ∀ r ∈ new, CreatedFor domain addrStr r)
      (result : Except Error Unit) (hok : result = .ok () → new ≠ []) :
      SetOutcome z domain addrStr result (z.records ++ new)

theorem toString_valid (addr : Ipv6Addr) : (Ipv6Addr.fromStr addr.toString).isSome = true := by
  rw [fromStr_toString]
  rfl

/-- The update of a listed record. -/
theorem updateExisting_outcome {addr : Ipv6Addr} {r : CfDnsRecord} {rs : List CfDnsRecord}
    (hq : w.state.queried domain = r :: rs) (hc : r.content ≠ addr.toString)
    {out : Except Error Unit × Remote api.service}
    (hout : (api.updater token).updateExisting api.http domain r addr.toString w = out) :
    SetOutcome w.state domain addr.toString out.1 out.2.state.records := by
  obtain ⟨hmem, -⟩ := Zone.of_queried_cons hq
  rcases hreq : (api.updater token).requestWithRetry api.http BodyText.asRecord .patch
    ((api.updater token).recordPath r.id) (some (.updateRecord addr.toString)) w with ⟨response, w'⟩
  obtain ⟨hstate, hok⟩ := patch_spec api token (List.mem_map_of_mem hmem) (toString_valid addr) hreq
  obtain ⟨hfin, hfinok⟩ := finish_spec domain "API errors on update" (response, w')
  rw [updateExisting, hreq] at hout
  rw [← hout, hfin]
  cases hres : (finish domain "API errors on update" (response, w')).1 with
  | error e =>
    rcases hstate with hstate | hstate
    · rw [hstate]
      exact .failed e
    · rw [hstate]
      exact .updated r rs hq hc _
  | ok u =>
    obtain ⟨resp, hresp, hs⟩ := hfinok.1 hres
    rw [hok resp hresp hs]
    exact .updated r rs hq hc _

/-- The creation of a record. -/
theorem createNew_outcome {addr : Ipv6Addr} (hq : w.state.queried domain = [])
    {out : Except Error Unit × Remote api.service}
    (hout : (api.updater token).createNew api.http domain addr.toString w = out) :
    SetOutcome w.state domain addr.toString out.1 out.2.state.records := by
  rcases hreq : (api.updater token).requestWithRetry api.http BodyText.asRecord .post (api.updater token).recordsPath
    (some (.createRecord "AAAA" domain addr.toString 120)) w with ⟨response, w'⟩
  obtain ⟨new, hstate, hnew, hok⟩ := create_spec api token (toString_valid addr) hreq
  obtain ⟨hfin, hfinok⟩ := finish_spec domain "API errors on create" (response, w')
  rw [createNew, hreq] at hout
  rw [← hout, hfin, hstate]
  refine .created hq new hnew _ fun hres => ?_
  obtain ⟨resp, hresp, hs⟩ := hfinok.1 hres
  exact hok resp hresp hs

/-- **What `set_record` does**, whatever happens to its requests. -/
theorem setRecord_outcome (domain : String) (addr : Ipv6Addr) (w : Remote api.service) :
    SetOutcome w.state domain addr.toString ((api.updater token).setRecord api.http domain addr w).1
      ((api.updater token).setRecord api.http domain addr w).2.state.records := by
  rcases hout : (api.updater token).requestWithRetry api.http BodyText.asList .get
    ((api.updater token).listPath domain) none w with ⟨answer, w'⟩
  obtain ⟨hstate, hlist⟩ := list_spec api token hout
  replace hstate : w'.state = w.state := hstate
  rw [← hstate]
  by_cases hfail : ∀ response, answer = .ok response → response.success = false
  · obtain ⟨e, he⟩ := setRecord_unlisted (api.updater token) domain addr hfail
    rw [he api.http w w' hout]
    exact .failed e
  · obtain ⟨response, rfl, hs⟩ : ∃ response, answer = .ok response ∧ response.success = true := by
      simpa using hfail
    have hq := hlist response rfl hs
    rw [← hstate] at hq
    obtain hnil | ⟨r, rs, hresult⟩ := records_nil_or_cons response
    · rw [setRecord_listed_nil hout hs hnil]
      exact createNew_outcome api token (hq.symm.trans hnil) rfl
    · rw [hresult, Option.getD_some] at hq
      by_cases hc : r.content = addr.toString
      · rw [setRecord_listed_correct hout hs hresult hc]
        exact .correct r rs hq.symm hc
      · rw [setRecord_listed_cons hout hs hresult hc]
        exact updateExisting_outcome api token hq.symm hc rfl

/-- When all calls go well, it succeeds. -/
theorem setRecord_good (domain : String) (addr : Ipv6Addr) (z : Zone) :
    ((api.updater token).setRecord api.http domain addr ⟨z, []⟩).1 = .ok () := by
  have hlist := requestWithRetry_good api (api.updater token) BodyText.asList
    (api.serve_list token z domain) (show (200 : Nat) ≠ 429 by decide)
  have hread : readResponse BodyText.asList ((api.updater token).listPath domain) (listAnswer (z.queried domain)) =
      .ok ⟨true, [], some (z.queried domain)⟩ := rfl
  rw [hread] at hlist
  have hvalid := toString_valid addr
  cases hq : z.queried domain with
  | nil =>
    rw [hq] at hlist
    obtain ⟨z', he, -⟩ := api.serve_create token z domain hvalid
    have hcreate := requestWithRetry_good api (api.updater token) BodyText.asRecord he
      (show (200 : Nat) ≠ 429 by decide)
    rw [setRecord_listed_nil hlist rfl rfl]
    simp only [createNew, hcreate]
    rfl
  | cons r rs =>
    rw [hq] at hlist
    by_cases hc : r.content = addr.toString
    · rw [setRecord_listed_correct hlist rfl rfl hc]
    · obtain ⟨hmem, -⟩ := Zone.of_queried_cons hq
      obtain ⟨s, z', he, -⟩ := api.serve_patch token (List.mem_map_of_mem hmem) hvalid
      have hpatch := requestWithRetry_good api (api.updater token) BodyText.asRecord he
        (show (200 : Nat) ≠ 429 by decide)
      rw [setRecord_listed_cons hlist rfl rfl hc]
      simp only [updateExisting, hpatch]
      rfl

end SetRecord

end DdnsIpv6
